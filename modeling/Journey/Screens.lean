import Journey.Session

namespace Journey

variable {a b : App} {act : Act}

-- A profile change that is still to be answered does not count as pending here.
def App.AtRest (a : App) : Prop := a.requests = [] ∧ a.view.inTransition = false

def App.Agrees (a : App) : Prop := a.view.flow ≠ none ↔ a.device.currentUser = none

-- Until JourneyTVC has appeared nothing is asked: its appearance looks at the
-- session and presents what is missing.
def App.Settled (a : App) : Prop := a.view ≠ .appearing → a.Agrees

instance (a : App) : Decidable a.AtRest := inferInstanceAs (Decidable (_ ∧ _))
instance (a : App) : Decidable a.Agrees := inferInstanceAs (Decidable (_ ↔ _))

def AuthRequest.closes : AuthRequest → Option Controller
  | .logIn flow => some (.introductionVC flow)
  | .signIn number _ _ | .createUser number _ _ => some (.loginVC number)
  | .signInAndRetrieveData => none

def Act.SignsIn (index : Nat) : Act → Prop
  | .signInAndRetrieveDataDone i (some _) | .signInDone i (some _) | .createUserDone i (some _) => i = index
  | _ => False

-- A sign-in that succeeds under a presented introduction was asked for in its stack.
def SignInCloses (a : App) (act : Act) : Prop := ∀ index request, act.SignsIn index →
  a.requests[index]? = some request → a.view.flow ≠ none → ∃ self ∈ a.view.stack, request.closes = some self

theorem settled_signedIn (signed : a.device.currentUser ≠ none) : a.Settled ↔ a.view.flow = none := by
  simp only [App.Settled,App.Agrees,signed,iff_false,not_not]
  exact ⟨fun settled => by_cases (fun due : a.view = .appearing => due ▸ rfl) settled,fun closed _ => closed⟩

theorem settled_congr (view : b.view = a.view) (session : b.device.currentUser = none ↔ a.device.currentUser = none) :
    b.Settled ↔ a.Settled := by simp only [App.Settled,App.Agrees,view,session]

theorem settled_session (settled : a.Settled) (due : a.view ≠ .appearing) (open_ : a.view.flow = none) :
    a.device.currentUser ≠ none := fun nobody => (settled due).mpr nobody open_

theorem move_settled {view : View} (moved : a.view.move act = some view) (settled : a.Settled) :
    App.Settled {a with view} := by
  obtain ⟨shown,due | same⟩ := move_flow moved
  · exact fun open_ => absurd due open_
  · intro _
    simpa only [App.Agrees,same] using settled shown

theorem move_quiet {view next : View} {index : Nat} (moved : view.move act = some next) : ¬ act.SignsIn index := by
  unfold View.move at moved
  split at moved
  all_goals first | exact id | cases moved

theorem dismiss_settled {self : Controller} (signed : a.device.currentUser ≠ none) :
    (a.dismiss self).Settled ↔ (a.view.flow ≠ none → self ∈ a.view.stack) := by
  rw [settled_signedIn (by exact signed),dismiss_flow]
  by_cases shown : self ∈ a.view.stack
  · simp [shown]
  · simp [shown]

theorem settled_dismiss {self : Controller} (settled : a.Settled) : (a.dismiss self).Settled := by
  rcases dismiss_cases a self with ⟨_,due⟩ | ⟨_,same⟩
  · exact fun other => absurd due other
  · exact same.symm ▸ settled

theorem quiet_settled (rule : Advances a act b) (quiet : ∀ index, ¬ act.SignsIn index) (settled : a.Settled) :
    b.Settled := by
  have still {next : App} (view : next.view = a.view) (session : next.device.currentUser = a.device.currentUser) :
      next.Settled := (settled_congr view (by rw [session])).mpr settled
  cases rule with
  | appearOut due nobody => exact fun _ => by simp [App.Agrees,View.flow,Device.cleared,nobody]
  | appearUnnamed due signed => exact fun _ => by simp [App.Agrees,signed]
  | appearNamed due signed => exact fun _ => by simp [App.Agrees,signed]
  | move moved => exact move_settled moved settled
  | showLogin shown =>
      have nobody := (settled (by simp [shown])).mp (by simp [shown,View.flow])
      exact fun _ => by simp [App.Agrees,View.flow,nobody]
  | settings opens named => exact (settled_signedIn (by exact displayName_signed named)).mpr rfl
  | disconnect shown named => exact (settled_signedIn (by exact displayName_signed named)).mpr rfl
  | loggedOut due => exact fun open_ => absurd rfl open_
  | logOutFailed due =>
      have signed := settled_session settled (by simp [due]) (by rw [due]; rfl)
      exact (settled_signedIn (by exact signed)).mpr rfl
  | @logIn index flow pending =>
      have asked : (useFirebaseLogin (a.dequeue index)).Settled := still rfl rfl
      exact settled_dismiss asked
  | commit pending =>
      refine (settled_congr (a := a) (b := App.renamed _ _) rfl ?_).mpr settled
      exact Option.map_eq_none_iff
  | credential | credentialTrap | signIn | createUser => exact absurd rfl (quiet _)
  | _ => exact still rfl rfl

theorem signsIn_unique {index other : Nat} (signs : act.SignsIn index) (again : act.SignsIn other) :
    index = other := by
  unfold Act.SignsIn at signs again
  split at signs <;> simp_all

theorem closes_iff {index : Nat} {request : AuthRequest} (signs : act.SignsIn index)
    (pending : a.requests[index]? = some request) :
    SignInCloses a act ↔ (a.view.flow ≠ none → ∃ self ∈ a.view.stack, request.closes = some self) := by
  constructor
  · exact fun closes => closes index request signs pending
  · intro closes other found again waiting
    cases signsIn_unique signs again
    cases pending.symm.trans waiting
    exact closes

theorem signIn_settled {index : Nat} (rule : Advances a act b) (signs : act.SignsIn index) :
    b.Settled ↔ SignInCloses a act := by
  cases rule with
  | credential pending =>
      have same : _ = index := signs
      rw [closes_iff signs (same ▸ pending),settled_signedIn (opened_signed _),opened_view]
      simp [App.dequeue,AuthRequest.closes,Option.eq_none_iff_forall_ne_some]
  | credentialTrap pending =>
      have same : _ = index := signs
      rw [closes_iff signs (same ▸ pending),settled_signedIn (by exact opened_signed _)]
      simp [App.trap,App.dequeue,AuthRequest.closes,Option.eq_none_iff_forall_ne_some]
  | signIn pending found =>
      have same : _ = index := signs
      rw [closes_iff signs (same ▸ pending),dismiss_settled (by simp [App.signedIn])]
      simp [App.signedIn,App.dequeue,AuthRequest.closes]
  | createUser pending fresh =>
      have same : _ = index := signs
      rw [closes_iff signs (same ▸ pending),createUserClosure,if_pos rfl,dismiss_settled (by simp [App.signedIn])]
      simp [App.signedIn,App.registered,App.dequeue,AuthRequest.closes]
  | move moved => exact absurd signs (move_quiet moved)
  | settings opens => rcases opens with ⟨_,rfl⟩ | ⟨_,rfl⟩ | ⟨_,rfl⟩ <;> cases signs
  | unwrapTrap shown => rcases shown with (⟨_,rfl⟩ | ⟨_,rfl⟩ | ⟨_,rfl⟩) | ⟨_,rfl⟩ <;> cases signs
  | commitName shown leaves => rcases leaves with rfl | rfl <;> cases signs
  | _ => cases signs

theorem advance_settled (taken : advance a act = some b) (settled : a.Settled) : b.Settled ↔ SignInCloses a act := by
  have rule := (advance_iff.mp taken).2
  by_cases signs : ∃ index, act.SignsIn index
  · obtain ⟨index,signs⟩ := signs
    exact signIn_settled rule signs
  · have quiet := not_exists.mp signs
    exact ⟨fun _ index _ signs => absurd signs (quiet index),fun _ => quiet_settled rule quiet settled⟩

def AgreesAtRest (origin : App) (acts : List Act) : Prop :=
  Runs.Always advance origin acts fun _ a => a.AtRest → a.Agrees

def SignInsClose (origin : App) (acts : List Act) : Prop :=
  Runs.Guarded advance origin acts fun _ a act => SignInCloses a act

theorem screens_exact {accounts : String → Option (Option String)} {session : Option String} {acts : List Act}
    {final : App} (ran : sessionRun (App.launch accounts session) acts = some final) :
    (SignInsClose (App.launch accounts session) acts → AgreesAtRest (App.launch accounts session) acts) ∧
      (SignInsClose (App.launch accounts session) acts ↔
        Runs.Always advance (App.launch accounts session) acts fun _ a => a.Settled) := by
  have exact : Runs.Always advance (App.launch accounts session) acts (fun _ a => a.Settled) ↔
      SignInsClose (App.launch accounts session) acts := by
    refine Runs.always_iff_guarded (fun due => absurd rfl due) ?_ ran
    exact fun _ _ _ _ _ settled taken => advance_settled taken settled
  refine ⟨fun closes past rest a split reached rests => ?_,exact.symm⟩
  refine exact.mpr closes past rest a split reached fun due => ?_
  simp [due,View.inTransition,App.AtRest] at rests

theorem screens_email :
    let origin := App.launch (fun uid => if uid = "u" then some (some "U") else none) none
    let acts : List Act := [.viewDidAppear,.showLogin,.submitInformations "u@x" "secret",.signInDone 0 (some "u"),
      .viewDidAppear]
    (SignInsClose origin acts → AgreesAtRest origin acts) ∧
      (SignInsClose origin acts ↔ Runs.Always advance origin acts fun _ a => a.Settled) := by
  intro origin acts
  obtain ⟨final,ran⟩ := Option.isSome_iff_exists.mp (show (sessionRun origin acts).isSome = true by decide)
  exact screens_exact ran

-- Facebook has answered and the introduction is closed; the journal appears while
-- Firebase still has the credential, and presents the introduction again.
theorem screens_lateCredential_disagree : ¬ AgreesAtRest (App.launch (fun _ => none) none) [.viewDidAppear,
    .loginWithFacebook,.logInDone 0 .success,.viewDidAppear,
    .signInAndRetrieveDataDone 0 (some ⟨"u",some "U",some "u@x"⟩)] := by
  intro agrees
  obtain ⟨final,ran,rests,parted⟩ : ∃ final, sessionRun (App.launch (fun _ => none) none) [.viewDidAppear,
      .loginWithFacebook,.logInDone 0 .success,.viewDidAppear,
      .signInAndRetrieveDataDone 0 (some ⟨"u",some "U",some "u@x"⟩)] = some final ∧ final.AtRest ∧ ¬ final.Agrees :=
    Runs.run_reaches (by decide)
  exact parted (agrees _ [] final (List.append_nil _).symm ran rests)

-- A LoginVC that was left dismisses nothing: the introduction stays over a session.
example : (sessionRun (App.launch (fun uid => if uid = "u" then some (some "U") else none) none) [.viewDidAppear,
    .showLogin,.submitInformations "u@x" "secret",.leaveLogin,.signInDone 0 (some "u")]).map
      (fun a => (decide a.AtRest,decide a.Agrees)) = some (true,false) := by decide

end Journey
