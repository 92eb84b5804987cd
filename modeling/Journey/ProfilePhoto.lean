import Journey.Kingfisher
import Journey.Session

namespace Journey

open Kingfisher (Sourced Exact Genuine)

-- A profile photo is what the storage holds at uid/profilePhoto.jpg, or the picture
-- that Facebook names for the owner of a token. Pictures are known by their source.
inductive PhotoURL where
  | stored (uid : String)
  | facebook (uid : String)
  deriving DecidableEq, Repr

inductive Picture where
  | profile
  | content (url : PhotoURL)
  deriving DecidableEq, Repr

def PhotoURL.owner : PhotoURL → String
  | .stored uid | .facebook uid => uid

-- The photo in the header of JourneyTVC, with the calls of downloadURL and of the
-- Graph API that are to be answered; the latter go with the token of their start.
-- `appeared` is a history variable, the account of the last appearance.
structure ProfilePhoto where
  token : Option String
  downloads : List String
  graphRequests : List (Option String)
  profilePhoto : Kingfisher.State Unit PhotoURL PhotoURL Picture
  appeared : Option String

inductive Transfer where
  | io
  | main
  | processImage (url : PhotoURL) (found : Bool)
  | purge (url : PhotoURL)
  | expire (url : PhotoURL)
  deriving DecidableEq, Repr

def Transfer.event : Transfer → Kingfisher.Event Unit PhotoURL PhotoURL Picture
  | .io => .io
  | .main => .main
  | .processImage url found => .processImage url (if found then some (.content url) else none)
  | .purge url => .purge url
  | .expire url => .expire url

structure Front where
  app : App
  photo : ProfilePhoto

inductive FrontAct where
  | act (act : Act)
  | facebookToken (owner : Option String)
  | downloadURLDone (index : Nat) (found : Bool)
  | getUserInfoDone (index : Nat) (found : Bool)
  | transfer (transfer : Transfer)
  deriving DecidableEq, Repr

def Front.launch (accounts : String → Option (Option String)) (session token : Option String) : Front :=
  ⟨.launch accounts session,token,[],[],.empty,none⟩

def downloadPhoto (p : ProfilePhoto) (uid : String) : ProfilePhoto := {p with downloads := p.downloads ++ [uid]}

def getUserInfo (p : ProfilePhoto) : ProfilePhoto := {p with graphRequests := p.graphRequests ++ [p.token]}

def loadFrom (uid : String) (p : ProfilePhoto) (providerID : String) : ProfilePhoto :=
  if providerID = "facebook.com" then getUserInfo p else downloadPhoto p uid

-- What viewDidAppear does to the photo. An account without a name gets one first.
def appearPhoto (providerData : String → List String) (p : ProfilePhoto) : Option User → ProfilePhoto
  | none => {p with profilePhoto := p.profilePhoto.show () {p.profilePhoto.view () with image := some .profile},
                    appeared := none}
  | some user =>
    let p := {p with appeared := some user.uid}
    if user.displayName = none then p else (providerData user.uid).foldl (loadFrom user.uid) p

-- An error leaves the photo that is shown.
def ProfilePhoto.answered (p : ProfilePhoto) : Option PhotoURL → ProfilePhoto
  | some url => {p with profilePhoto := Kingfisher.setImage p.profilePhoto () (some url)}
  | none => p

def photoStep (p : ProfilePhoto) : FrontAct → Option ProfilePhoto
  | .act _ => some p
  | .facebookToken owner => some {p with token := owner}
  | .downloadURLDone index found => p.downloads[index]?.map fun uid =>
      ProfilePhoto.answered {p with downloads := p.downloads.eraseIdx index}
        (if found then some (.stored uid) else none)
  -- A request that went without a token is refused, and so is the answer once there
  -- is no token any more.
  | .getUserInfoDone index found => p.graphRequests[index]?.map fun request =>
      ProfilePhoto.answered {p with graphRequests := p.graphRequests.eraseIdx index}
        (if found ∧ p.token ≠ none then request.map .facebook else none)
  | .transfer transfer =>
    (Kingfisher.step id p.profilePhoto transfer.event).map fun profilePhoto => {p with profilePhoto}

def frontStep (providerData : String → List String) (f : Front) : FrontAct → Option Front
  | .act act => (advance f.app act).map fun app =>
      ⟨app,if act = .viewDidAppear then appearPhoto providerData f.photo f.app.device.currentUser else f.photo⟩
  | act => if f.app.device.running then (photoStep f.photo act).map fun photo => {f with photo} else none

structure ProfilePhoto.Owned (p : ProfilePhoto) : Prop where
  shown : ∀ url, (p.profilePhoto.view ()).image = some (.content url) → p.appeared = some url.owner
  awaited : ∀ url, (p.profilePhoto.view ()).webURL = some url → p.profilePhoto.Waits () url →
    p.appeared = some url.owner

def ProfilePhoto.Blank (p : ProfilePhoto) : Prop := ∀ url, (p.profilePhoto.view ()).image ≠ some (.content url)

def ProfilePhoto.Minds (p : ProfilePhoto) (user : Option User) : FrontAct → Prop
  | .act .viewDidAppear => match user with
      | none => p.profilePhoto.Idle ()
      | some user => p.appeared = some user.uid ∨ p.Blank ∧ p.profilePhoto.Idle ()
  | .downloadURLDone index true => ∀ uid ∈ p.downloads[index]?, p.appeared = some uid
  | .getUserInfoDone index true => p.token ≠ none → ∀ uid, p.graphRequests[index]? = some (some uid) →
      p.appeared = some uid
  | _ => True

section

variable {providerData : String → List String} {p q : ProfilePhoto} {f g : Front}

theorem loads_photo (uid : String) (providers : List String) :
    (providers.foldl (loadFrom uid) p).profilePhoto = p.profilePhoto ∧
      (providers.foldl (loadFrom uid) p).appeared = p.appeared := by
  induction providers generalizing p with
  | nil => exact ⟨rfl,rfl⟩
  | cons providerID others ih =>
      have one : (loadFrom uid p providerID).profilePhoto = p.profilePhoto ∧
          (loadFrom uid p providerID).appeared = p.appeared := by
        unfold loadFrom
        split <;> exact ⟨rfl,rfl⟩
      exact ⟨ih.1.trans one.1,ih.2.trans one.2⟩

theorem appear_photo (user : User) : (appearPhoto providerData p (some user)).profilePhoto = p.profilePhoto ∧
    (appearPhoto providerData p (some user)).appeared = some user.uid := by
  simp only [appearPhoto]
  split
  · exact ⟨rfl,rfl⟩
  · exact loads_photo _ _

theorem appear_owned (owned : p.Owned) (user : Option User) :
    (appearPhoto providerData p user).Owned ↔ p.Minds user (.act .viewDidAppear) := by
  cases user with
  | none =>
      constructor
      · intro next url asked waits
        cases next.awaited url (by simpa [appearPhoto,Kingfisher.State.show] using asked) waits
      · intro idle
        refine ⟨fun url shown => ?_,fun url asked waits => ?_⟩
        · simp [appearPhoto,Kingfisher.State.show] at shown
        · exact absurd waits (idle url (by simpa [appearPhoto,Kingfisher.State.show] using asked))
  | some user =>
      have photo : (appearPhoto providerData p (some user)).profilePhoto = p.profilePhoto := (appear_photo user).1
      have appeared : (appearPhoto providerData p (some user)).appeared = some user.uid := (appear_photo user).2
      constructor
      · intro next
        by_cases same : p.appeared = some user.uid
        · exact .inl same
        · refine .inr ⟨fun url shown => ?_,fun url asked waits => ?_⟩
          · have owner := next.shown url (by rw [photo]; exact shown)
            rw [appeared] at owner
            exact same ((owned.shown url shown).trans owner.symm)
          · have owner := next.awaited url (by rw [photo]; exact asked) (by rw [photo]; exact waits)
            rw [appeared] at owner
            exact same ((owned.awaited url asked waits).trans owner.symm)
      · intro either
        refine ⟨fun url shown => ?_,fun url asked waits => ?_⟩
        all_goals simp only [photo,appeared] at *
        · rcases either with same | ⟨blank,_⟩
          · exact same.symm.trans (owned.shown url shown)
          · exact absurd shown (blank url)
        · rcases either with same | ⟨_,idle⟩
          · exact same.symm.trans (owned.awaited url asked waits)
          · exact absurd waits (idle url asked)

theorem answered_owned (sourced : Sourced id (Exact .content) p.profilePhoto) (url : PhotoURL) :
    (p.answered (some url)).Owned ↔ p.appeared = some url.owner := by
  cases cached : p.profilePhoto.memoryCache url with
  | some image =>
      obtain rfl := sourced.memory url image cached
      have set := Kingfisher.setImage_cached (v := ()) cached
      constructor
      · exact fun owned => owned.shown url (by simp [ProfilePhoto.answered,set,Kingfisher.State.show])
      · intro same
        constructor
        · intro other shown
          simp only [ProfilePhoto.answered,set,Kingfisher.State.show,Function.update_self,Option.some.injEq,
            Picture.content.injEq] at shown
          exact shown ▸ same
        · intro other asked _
          simp only [ProfilePhoto.answered,set,Kingfisher.State.show,Function.update_self,Option.some.injEq] at asked
          exact asked ▸ same
  | none =>
      have set := Kingfisher.setImage_uncached (v := ()) cached
      constructor
      · intro owned
        refine owned.awaited url (by simp [ProfilePhoto.answered,set]) (.inl ?_)
        simp [ProfilePhoto.answered,set,Kingfisher.IOBlock.retrieval]
      · intro same
        constructor
        · intro other shown
          simp [ProfilePhoto.answered,set] at shown
        · intro other asked _
          simp only [ProfilePhoto.answered,set,Function.update_self,Option.some.injEq] at asked
          exact asked ▸ same

theorem transfer_inside (transfer : Transfer) : Genuine (Exact Picture.content) transfer.event ∧
    (∀ v resource, transfer.event ≠ .setImage v resource) ∧ ∀ v image, transfer.event ≠ .assign v image := by
  cases transfer with
  | processImage url found => cases found <;> simp [Transfer.event,Genuine]
  | _ => simp [Transfer.event,Genuine]

theorem transfer_owned {transfer : Transfer} {photo : Kingfisher.State Unit PhotoURL PhotoURL Picture}
    (sourced : Sourced id (Exact .content) p.profilePhoto) (owned : p.Owned)
    (taken : Kingfisher.step id p.profilePhoto transfer.event = some photo) :
    ProfilePhoto.Owned {p with profilePhoto := photo} := by
  obtain ⟨_,unset,unassigned⟩ := transfer_inside transfer
  have waits : ∀ url, photo.Waits () url → p.profilePhoto.Waits () url :=
    fun url waits => (Kingfisher.step_waits taken waits).resolve_right (unset () _)
  rcases Kingfisher.step_view sourced taken () with ⟨resource,set,_⟩ | ⟨image,assigned,_⟩ | ⟨_,same | brought⟩
  · exact absurd set (unset () resource)
  · exact absurd assigned (unassigned () image)
  · exact ⟨fun url shown => owned.shown url (same ▸ shown),
      fun url asked waiting => owned.awaited url (same ▸ asked) (waits url waiting)⟩
  · obtain ⟨url,_,asked,waited,rfl,same⟩ := brought
    refine ⟨fun other shown => ?_,fun other asked waiting => ?_⟩
    · simp only [same,Option.some.injEq,Picture.content.injEq] at shown
      exact shown ▸ owned.awaited url asked waited
    · exact owned.awaited other (by simpa [same] using asked) (waits other waiting)

theorem answered_sourced (sourced : Sourced id (Exact .content) p.profilePhoto) (url : Option PhotoURL) :
    Sourced id (Exact .content) (p.answered url).profilePhoto := by
  cases url with
  | none => exact sourced
  | some url => exact Kingfisher.setImage_sourced sourced () (some url)

theorem photo_sourced {act : FrontAct} (sourced : Sourced id (Exact .content) p.profilePhoto)
    (taken : photoStep p act = some q) : Sourced id (Exact .content) q.profilePhoto := by
  cases act with
  | act | facebookToken =>
      cases taken
      exact sourced
  | downloadURLDone index found =>
      obtain ⟨uid,_,rfl⟩ := Option.map_eq_some_iff.mp taken
      exact answered_sourced (p := {p with downloads := p.downloads.eraseIdx index}) sourced _
  | getUserInfoDone index found =>
      obtain ⟨request,_,rfl⟩ := Option.map_eq_some_iff.mp taken
      exact answered_sourced (p := {p with graphRequests := p.graphRequests.eraseIdx index}) sourced _
  | transfer transfer =>
      obtain ⟨photo,moved,rfl⟩ := Option.map_eq_some_iff.mp taken
      exact Kingfisher.step_sourced Kingfisher.shared_id sourced (transfer_inside transfer).1 moved

theorem front_parts {act : FrontAct} (taken : frontStep providerData f act = some g) :
    (act = .act .viewDidAppear ∧ g.photo = appearPhoto providerData f.photo f.app.device.currentUser) ∨
      act ≠ .act .viewDidAppear ∧ photoStep f.photo act = some g.photo := by
  cases act with
  | act act =>
      obtain ⟨app,_,rfl⟩ := Option.map_eq_some_iff.mp taken
      by_cases appears : act = .viewDidAppear
      · exact .inl ⟨by rw [appears],if_pos appears⟩
      · exact .inr ⟨by simpa using appears,by simp [photoStep,appears]⟩
  | _ =>
      obtain ⟨_,mapped⟩ := Option.ite_none_right_eq_some.mp taken
      obtain ⟨photo,moved,rfl⟩ := Option.map_eq_some_iff.mp mapped
      exact .inr ⟨by simp,moved⟩

theorem front_sourced {act : FrontAct} (sourced : Sourced id (Exact .content) f.photo.profilePhoto)
    (taken : frontStep providerData f act = some g) : Sourced id (Exact .content) g.photo.profilePhoto := by
  rcases front_parts taken with ⟨_,same⟩ | ⟨_,moved⟩
  · rw [same]
    cases f.app.device.currentUser with
    | none =>
        let event : Kingfisher.Event Unit PhotoURL PhotoURL Picture := .assign () (some .profile)
        have genuine : Kingfisher.Genuine (Exact Picture.content) event := trivial
        exact Kingfisher.step_sourced Kingfisher.shared_id sourced genuine rfl
    | some user =>
        rw [(appear_photo user).1]
        exact sourced
  · exact photo_sourced sourced moved

theorem photo_owned {act : FrontAct} (sourced : Sourced id (Exact .content) p.profilePhoto) (owned : p.Owned)
    (user : Option User) (other : act ≠ .act .viewDidAppear) (taken : photoStep p act = some q) : q.Owned ↔ p.Minds user act := by
  cases act with
  | act act =>
      cases taken
      refine iff_of_true owned ?_
      unfold ProfilePhoto.Minds
      split <;> first | exact absurd rfl other | trivial
  | facebookToken =>
      cases taken
      exact iff_of_true ⟨owned.shown,owned.awaited⟩ trivial
  | downloadURLDone index found =>
      obtain ⟨uid,pending,rfl⟩ := Option.map_eq_some_iff.mp taken
      cases found with
      | false => exact iff_of_true ⟨owned.shown,owned.awaited⟩ trivial
      | true =>
          refine (answered_owned (p := {p with downloads := p.downloads.eraseIdx index}) sourced (.stored uid)).trans ?_
          simp [ProfilePhoto.Minds,pending,PhotoURL.owner]
  | getUserInfoDone index found =>
      obtain ⟨request,pending,rfl⟩ := Option.map_eq_some_iff.mp taken
      have kept : ProfilePhoto.Owned {p with graphRequests := p.graphRequests.eraseIdx index} :=
        ⟨owned.shown,owned.awaited⟩
      cases found with
      | false => simpa [ProfilePhoto.Minds,ProfilePhoto.answered] using kept
      | true =>
          by_cases gone : p.token = none
          · simpa [ProfilePhoto.Minds,ProfilePhoto.answered,gone] using kept
          · cases request with
            | none => simpa [ProfilePhoto.Minds,ProfilePhoto.answered,pending] using kept
            | some uid =>
                simp only [true_and,if_pos gone,Option.map_some]
                refine (answered_owned (p := {p with graphRequests := p.graphRequests.eraseIdx index}) sourced
                  (.facebook uid)).trans ?_
                simp [ProfilePhoto.Minds,pending,gone,PhotoURL.owner]
  | transfer transfer =>
      obtain ⟨photo,moved,rfl⟩ := Option.map_eq_some_iff.mp taken
      exact iff_of_true (transfer_owned sourced owned moved) trivial

theorem front_owned {act : FrontAct} (sourced : Sourced id (Exact .content) f.photo.profilePhoto)
    (owned : f.photo.Owned) (taken : frontStep providerData f act = some g) :
    g.photo.Owned ↔ f.photo.Minds f.app.device.currentUser act := by
  rcases front_parts taken with ⟨rfl,same⟩ | ⟨other,moved⟩
  · rw [same]
    exact appear_owned owned _
  · exact photo_owned sourced owned _ other moved

theorem profilePhoto_exact {accounts : String → Option (Option String)} {session token : Option String}
    {acts : List FrontAct} (ran : Runs.run (frontStep providerData) (.launch accounts session token) acts = some f) :
    Runs.Always (frontStep providerData) (.launch accounts session token) acts (fun _ f => f.photo.Owned) ↔
      Runs.Guarded (frontStep providerData) (.launch accounts session token) acts
        fun _ f act => f.photo.Minds f.app.device.currentUser act := by
  refine Runs.always_iff_guarded ?_ ?_ ran
  · exact ⟨by simp [Front.launch,Kingfisher.State.empty],by simp [Front.launch,Kingfisher.State.empty]⟩
  · intro past f act g reached owned taken
    have sourced : Sourced id (Exact .content) f.photo.profilePhoto :=
      Runs.run_invariant (I := fun f => Sourced id (Exact .content) f.photo.profilePhoto) Kingfisher.empty_sourced
        (fun _ _ _ => front_sourced) reached
    exact front_owned sourced owned taken

-- The answer for the account that logged out comes when the header shows nobody.
theorem profilePhoto_exact_loggedOut :
    let accounts : String → Option (Option String) := fun uid => if uid = "a" then some (some "A") else none
    let acts : List FrontAct := [.act .viewDidAppear,.act .openSettings,.act .disconnect,.act .logOut,
      .act (.logOutCompletion true),.act .viewDidAppear,.downloadURLDone 0 true]
    ¬ Runs.Guarded (frontStep fun _ => ["password"]) (.launch accounts (some "a") none) acts
      fun _ f act => f.photo.Minds f.app.device.currentUser act := by
  intro accounts acts
  obtain ⟨f,ran,asked,waits,gone⟩ : ∃ f, Runs.run (frontStep fun _ => ["password"])
      (.launch accounts (some "a") none) acts = some f ∧ (f.photo.profilePhoto.view ()).webURL = some (.stored "a") ∧
        f.photo.profilePhoto.Waits () (.stored "a") ∧ f.photo.appeared = none := Runs.run_reaches (by decide)
  intro guarded
  have owned := (profilePhoto_exact ran).mpr guarded acts [] f (by simp) ran
  cases gone.symm.trans (owned.awaited _ asked waits)

end

end Journey
