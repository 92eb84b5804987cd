import Journey.Coherence

namespace Journey

variable {D : Type} [DecidableEq D] {auto : AutoId} {w next : World D} {device y : D} {u : String} {action : Action}

def Action.OnJournal : Action → Prop
  | .saveNewPost _ | .uploadDone _ _ | .deliver _ | .delete _ => True
  | _ => False

structure Watching (auto : AutoId) (u : String) (device : D) (w : World D) : Prop where
  reached : ∃ past, runs auto World.start past = some w
  session : (w.device device).uid = some u
  observer : ∃ queue, (w.device device).observers = [⟨u,queue⟩]
  once : (w.device device).ids.Nodup

def delivers (device : D) (event : Event D) : Bool :=
  decide (event.1 = device) && match event.2 with | .deliver _ => true | _ => false

-- The user deleted the post with this id, and since then the device has been
-- given all that was on its way after that deletion, its own snapshot included.
def Retired (auto : AutoId) (device : D) (origin : World D) (events : List (Event D)) (key : String) : Prop :=
  ∃ past row rest before after, events = past ++ (device,.delete row) :: rest ∧ runs auto origin past = some before ∧
    step auto before (device,.delete row) = some after ∧
    (before.device device).posts[row]?.bind Post.id = some key ∧
    ∃ o ∈ (after.device device).observers, o.queue.length ≤ rest.countP (delivers device)

def OnceOnly (auto : AutoId) (device : D) (origin : World D) (events : List (Event D)) : Prop :=
  Runs.Always (step auto) origin events (fun _ w => (w.device device).ids.Nodup) ∧
    Runs.Throughout (step auto) origin events fun past before _ after => ∀ key, Retired auto device origin past key →
      some key ∉ (before.device device).ids → some key ∉ (after.device device).ids

def FreshUpload (auto : AutoId) (device : D) (origin : World D) (past : List (Event D)) (w : World D)
    (event : Event D) : Prop :=
  ∀ index upload post, event = (device,.uploadDone index true) → (w.device device).uploads[index]? = some upload →
    upload.closure = .post post →
    post.id ∉ (w.device device).ids ∧ ∀ key, post.id = some key → ¬ Retired auto device origin past key

theorem delivers_exact : delivers device (y,action) = true ↔ y = device ∧ ∃ index, action = .deliver index := by
  cases action <;> simp [delivers]

omit [DecidableEq D] in
theorem removed_absent {server : Server} (sound : server.Sound auto) {uid key : String}
    (removed : Write.removed uid key ∈ server.log) : key ∉ (server.posts uid).keys := by
  intro member
  have lists := sound.lists uid
  have listed : some key ∈ (journal uid server.log).map Post.id := by
    rw [lists.keys sound]
    exact List.mem_map_of_mem member
  obtain ⟨post,kept,named⟩ := List.mem_map.mp listed
  exact ((sound.kept uid post).mp kept).2 key named removed

theorem only_waiting {observers : List Observer} {queue rest : List Snapshot} {uid : String} {snapshot : Snapshot}
    {index : Nat} (only : observers = [⟨u,queue⟩]) (waiting : observers[index]? = some ⟨uid,snapshot :: rest⟩) :
    queue = snapshot :: rest ∧ observers.set index ⟨uid,rest⟩ = [⟨u,rest⟩] := by
  subst only
  cases index with
  | zero => cases waiting; exact ⟨rfl,rfl⟩
  | succ index => simp at waiting

theorem sends_only {request : Request} {own : Bool} (server : Server) (queue : List Snapshot)
    (attaches : ∀ uid, request = .observe uid → own = false) :
    ∃ more, (more = [] ∨ more = [server.posts u]) ∧ request.sends own server [⟨u,queue⟩] = [⟨u,queue ++ more⟩] := by
  cases request with
  | setValue uid key post | removeValue uid key =>
      by_cases same : u = uid
      · subst same
        exact ⟨_,.inr rfl,by simp [Request.sends]⟩
      · exact ⟨[],.inl rfl,by simp [Request.sends,same]⟩
  | putObject path data => exact ⟨[],.inl rfl,by simp [Request.sends]⟩
  | observe uid => exact ⟨[],.inl rfl,by simp [Request.sends,attaches uid rfl]⟩

theorem watched_step {queue : List Snapshot} (coherent : Coherent auto w)
    (observer : (w.device device).observers = [⟨u,queue⟩]) (allowed : y = device → action.OnJournal)
    (taken : step auto w (y,action) = some next) :
    (delivers device (y,action) = true ∧ ∃ snapshot rest, queue = snapshot :: rest ∧
      (next.device device).observers = [⟨u,rest⟩]) ∨
    (delivers device (y,action) = false ∧ ∃ more, (more = [] ∨ more = [next.server.posts u]) ∧
      (next.device device).observers = [⟨u,queue ++ more⟩]) := by
  obtain ⟨_,reaction,rule,rfl⟩ := step_iff.mp taken
  cases delivery : delivers device (y,action) with
  | true =>
      refine .inl ⟨rfl,?_⟩
      obtain ⟨rfl,index,rfl⟩ := delivers_exact.mp delivery
      cases rule with
      | deliverEmpty waiting =>
          obtain ⟨rfl,after⟩ := only_waiting observer waiting
          exact ⟨_,_,rfl,(settle_observers w y y _).trans ((if_pos rfl).trans after)⟩
      | deliver waiting =>
          obtain ⟨rfl,after⟩ := only_waiting observer waiting
          exact ⟨_,_,rfl,(settle_observers w y y _).trans ((if_pos rfl).trans after)⟩
      | deliverTrap waiting mistyped =>
          obtain ⟨kept,lists⟩ := (coherent.fed y _ (List.mem_of_getElem? waiting)).lists _ List.mem_cons_self
          exact absurd (mistyped.symm.trans (lists.reads coherent.sound)) (by simp)
  | false =>
      refine .inr ⟨rfl,?_⟩
      have settled : ((w.settle y reaction.device).device device).observers = [⟨u,queue⟩] := by
        rw [settle_observers,← observer]
        split
        · rename_i same
          subst same
          rcases rule.observers with same | ⟨index,_,_,_,rfl,_⟩
          · exact same
          · simp [delivers] at delivery
        · rfl
      rw [commit_server]
      unfold World.commit
      cases issued : reaction.request with
      | none => exact ⟨[],.inl rfl,by simpa using settled⟩
      | some request =>
          simp only [serve_observers,settled,served_some]
          refine sends_only _ queue fun uid observes => ?_
          subst observes
          have elsewhere : device ≠ y := by
            intro same
            subst same
            cases rule with
            | appearNamed => exact allowed rfl
            | _ => cases issued
          simp [elsewhere]

-- While the device is watching, its session and its one observer stay, and what
-- it has still to be given after a deletion no longer has the deleted id.
structure Watched (auto : AutoId) (u : String) (device : D) (origin : World D) (events : List (Event D))
    (w : World D) : Prop where
  coherent : Coherent auto w
  session : (w.device device).uid = some u
  observer : ∃ queue, (w.device device).observers = [⟨u,queue⟩]
  gone : ∀ past row rest before after key, events = past ++ (device,.delete row) :: rest →
    runs auto origin past = some before → step auto before (device,.delete row) = some after →
    (before.device device).posts[row]?.bind Post.id = some key →
    Write.removed u key ∈ w.server.log ∧ ∀ o ∈ (after.device device).observers, ∀ p ∈ (w.device device).observers,
      Feed.After (o.queue.length - rest.countP (delivers device)) p.queue fun snapshot => key ∉ snapshot.keys

theorem Reacts.journal_session {server : Server} {dev : Device} {reaction : Reaction}
    (rule : Reacts auto server dev action reaction) (allowed : action.OnJournal) :
    (dev.after reaction.device).uid = dev.uid := by
  cases rule with
  | delete => simp [Device.uid,Device.after]
  | signIn | register | signOut | profileChanged => cases allowed
  | appearOut | appearUnnamed | appearNamed => cases allowed
  | _ => rfl

theorem after_step {queue : List Snapshot} {event : Event D} {n count : Nat} {key : String}
    (coherent : Coherent auto next)
    (removed : Write.removed u key ∈ next.server.log)
    (moved : (delivers device event = true ∧ ∃ snapshot rest, queue = snapshot :: rest ∧
        (next.device device).observers = [⟨u,rest⟩]) ∨
      (delivers device event = false ∧ ∃ more, (more = [] ∨ more = [next.server.posts u]) ∧
        (next.device device).observers = [⟨u,queue ++ more⟩]))
    (before : Feed.After (n - count) queue fun snapshot => key ∉ snapshot.keys) :
    ∀ p ∈ (next.device device).observers,
      Feed.After (n - (count + [event].countP (delivers device))) p.queue fun snapshot => key ∉ snapshot.keys := by
  have absent := removed_absent coherent.sound removed
  intro p member
  rcases moved with ⟨delivery,snapshot,rest,rfl,observers⟩ | ⟨other,more,sent,observers⟩
  · rw [observers,List.mem_singleton] at member
    subst member
    have popped := Feed.after_pop before
    rwa [List.countP_singleton,if_pos delivery,← Nat.sub_sub]
  · rw [observers,List.mem_singleton] at member
    subst member
    rw [List.countP_singleton,if_neg (by simp [other])]
    rcases sent with rfl | rfl
    · simpa using before
    · exact Feed.after_push before absent

theorem delete_removes {row : Nat} {key : String} (session : (w.device device).uid = some u)
    (taken : step auto w (device,.delete row) = some next)
    (found : (w.device device).posts[row]?.bind Post.id = some key) : Write.removed u key ∈ next.server.log := by
  obtain ⟨_,reaction,rule,rfl⟩ := step_iff.mp taken
  obtain ⟨post,here,named⟩ := Option.bind_eq_some_iff.mp found
  rw [commit_server]
  cases rule with
  | delete _ signed place key | deleteRaise _ signed place key =>
      cases place.symm.trans here
      cases key.symm.trans named
      rw [Device.uid,signed] at session
      cases session
      simp [Server.apply]
  | deleteTrap _ missing =>
      rcases missing with nobody | lost
      · simp [Device.uid,nobody] at session
      · cases lost.symm.trans found

theorem Watched.keeps {origin : World D} {past : List (Event D)} (watched : Watched auto u device origin past w)
    (reached : runs auto origin past = some w) (allowed : y = device → action.OnJournal)
    (taken : step auto w (y,action) = some next) : Watched auto u device origin (past ++ [(y,action)]) next := by
  obtain ⟨queue,observer⟩ := watched.observer
  have moved := watched_step watched.coherent observer allowed taken
  have coherent := watched.coherent.step taken
  have grows : w.server.log ⊆ next.server.log := by
    obtain ⟨_,reaction,_,rfl⟩ := step_iff.mp taken
    rw [commit_server]
    exact served_log _ _
  refine ⟨coherent,?_,?_,?_⟩
  · by_cases same : y = device
    · subst same
      obtain ⟨_,reaction,rule,rfl⟩ := step_iff.mp taken
      rw [Device.uid,commit_currentUser]
      exact (rule.journal_session (allowed rfl)).trans watched.session
    · have frame := congrArg Device.currentUser (step_other taken (Ne.symm same))
      simp only [local_currentUser] at frame
      rw [Device.uid,frame]
      exact watched.session
  · rcases moved with ⟨_,_,rest,_,observers⟩ | ⟨_,more,_,observers⟩
    · exact ⟨rest,observers⟩
    · exact ⟨queue ++ more,observers⟩
  · intro front row rest before after key split first deletes found
    rcases Runs.split_snoc split with ⟨rfl,same,rfl⟩ | ⟨between,rfl,earlier⟩
    · cases same
      cases reached.symm.trans first
      cases taken.symm.trans deletes
      refine ⟨delete_removes watched.session taken found,fun o inside p member => ?_⟩
      rcases moved with ⟨_,_,_,_,observers⟩ | ⟨_,_,_,observers⟩ <;>
      · rw [observers,List.mem_singleton] at inside member
        subst inside member
        exact Feed.after_length _ _
    · obtain ⟨removed,later⟩ := watched.gone front row between before after key earlier first deletes found
      refine ⟨grows removed,fun o inside => ?_⟩
      rw [List.countP_append]
      refine after_step coherent (grows removed) moved ?_
      exact later o inside ⟨u,queue⟩ (by simp [observer])

theorem Watched.retired {origin : World D} {past : List (Event D)} (watched : Watched auto u device origin past w)
    {key : String} (retired : Retired auto device origin past key) :
    ∀ p ∈ (w.device device).observers, ∀ snapshot ∈ p.queue, key ∉ snapshot.keys := by
  obtain ⟨front,row,rest,before,after,split,first,deletes,found,o,inside,given⟩ := retired
  intro p member
  have gone := (watched.gone front row rest before after key split first deletes found).2 o inside p member
  exact Feed.after_done gone (Nat.sub_eq_zero_of_le given)

omit [DecidableEq D] in
theorem shown_ids {server : Server} (sound : server.Sound auto) {uid : String} {snapshot : Snapshot} {kept : List Post}
    (lists : Lists server.log uid snapshot kept) :
    (kept.map Post.fetched).reverse.map Post.id = (snapshot.keys.map some).reverse := by
  rw [List.map_reverse,← lists.keys sound,List.map_map]
  rfl

theorem nodup_append_one {ids : List (Option String)} {id : Option String} (once : ids.Nodup) :
    (ids ++ [id]).Nodup ↔ id ∉ ids := by
  rw [List.nodup_append]
  constructor
  · intro both member
    obtain ⟨_,_,apart⟩ := both
    exact apart id member id (by simp) rfl
  · intro fresh
    refine ⟨once,by simp,?_⟩
    intro a member b new same
    subst same
    exact fresh (List.mem_singleton.mp new ▸ member)

theorem upload_fresh {origin : World D} {past : List (Event D)} {index : Nat} {path : List String}
    {data : List UInt8} {post : Post} (pending : (w.device y).uploads[index]? = some ⟨path,data,.post post⟩) :
    (post.id ∉ (w.device y).ids ∧ ∀ key, Retired auto y origin past key →
      some key ∉ (w.device y).ids → some key ∉ (w.device y).ids ++ [post.id]) ↔
    FreshUpload auto y origin past w (y,.uploadDone index true) := by
  constructor
  · intro both other upload p same found closure
    obtain ⟨fresh,kept⟩ := both
    cases same
    cases pending.symm.trans found
    cases closure
    refine ⟨fresh,fun key named retired => ?_⟩
    rw [named] at fresh kept
    exact kept key retired fresh (by simp)
  · intro fresh
    obtain ⟨absent,never⟩ := fresh index _ post rfl pending rfl
    refine ⟨absent,fun key retired outside inside => ?_⟩
    rcases List.mem_append.mp inside with old | new
    · exact outside old
    · exact never key (List.mem_singleton.mp new).symm retired

-- One step: the list stays without repetitions, and no retired id enters it,
-- exactly when an upload that succeeds is a fresh one.
theorem Watched.exact {origin : World D} {past : List (Event D)} (watched : Watched auto u device origin past w)
    (once : (w.device device).ids.Nodup) (allowed : y = device → action.OnJournal)
    (taken : step auto w (y,action) = some next) :
    ((next.device device).ids.Nodup ∧ ∀ key, Retired auto device origin past key →
      some key ∉ (w.device device).ids → some key ∉ (next.device device).ids) ↔
    FreshUpload auto device origin past w (y,action) := by
  have unchanged (same : (next.device device).posts = (w.device device).posts) :
      (next.device device).ids.Nodup ∧ ∀ key, Retired auto device origin past key →
        some key ∉ (w.device device).ids → some key ∉ (next.device device).ids := by
    rw [Device.ids,same]
    exact ⟨once,fun _ _ => id⟩
  by_cases here : y = device
  · subst here
    have kept := allowed rfl
    obtain ⟨_,reaction,rule,becomes⟩ := step_iff.mp taken
    have posts : (next.device y).posts = ((w.device y).after reaction.device).posts := by
      rw [becomes,commit_posts]
    clear becomes taken
    cases rule with
    | signIn | register | signOut | profileChanged | appearOut | appearUnnamed | appearNamed => cases kept
    | cellEmpty | cellImage | cellRequest | cellTrap => cases kept
    | urlFailed | urlFound | urlTrap | profilePhoto | profilePhotoTrap => cases kept
    | @uploaded index path data post pending =>
        have ids : (next.device y).ids = (w.device y).ids ++ [post.id] := by
          rw [Device.ids,posts]
          exact List.map_append
        rw [ids,nodup_append_one once]
        exact upload_fresh pending
    | @profileUploaded index path data pending =>
        refine iff_of_true (unchanged posts) ?_
        intro other upload post same found closure
        cases same
        cases pending.symm.trans found
        cases closure
    | @deliver index uid snapshot rest read waiting nonempty reads =>
        have member := List.mem_of_getElem? waiting
        obtain ⟨posts_of,lists⟩ := (watched.coherent.fed y _ member).lists snapshot List.mem_cons_self
        obtain rfl := Option.some.inj (reads.symm.trans (lists.reads watched.coherent.sound))
        have ids : (next.device y).ids = (snapshot.keys.map some).reverse := by
          rw [Device.ids,posts]
          exact shown_ids watched.coherent.sound lists
        rw [ids]
        refine iff_of_true ⟨?_,fun key retired _ inside => ?_⟩ (by intro _ _ _ same; cases same)
        · rw [List.nodup_reverse]
          exact snapshot.keys_nodup.map fun a b same => Option.some.inj same
        · have absent := watched.retired retired _ member snapshot List.mem_cons_self
          simp [absent] at inside
    | @delete row =>
        have ids : (next.device y).ids = (w.device y).ids.eraseIdx row := by
          rw [Device.ids,posts,Device.ids,List.eraseIdx_map]
          exact congrArg _ (without_posts _ _)
        rw [ids]
        refine iff_of_true ⟨once.sublist (List.eraseIdx_sublist _ _),fun key _ outside inside => ?_⟩ ?_
        · exact outside (List.mem_of_mem_eraseIdx inside)
        · intro _ _ _ same
          cases same
    | _ => exact iff_of_true (unchanged posts) (by intro _ _ _ same; cases same)
  · have frame := congrArg Device.posts (step_other taken (Ne.symm here))
    simp only [local_posts] at frame
    refine iff_of_true (unchanged frame) ?_
    intro index upload post same
    cases same
    exact absurd rfl here

theorem watching_runs {origin final : World D} {events : List (Event D)} (watching : Watching auto u device origin)
    (only : ∀ event ∈ events, event.1 = device → event.2.OnJournal) (ran : runs auto origin events = some final) :
    Watched auto u device origin events final := by
  obtain ⟨before,reached⟩ := watching.reached
  refine Runs.run_induction_within ?_ ?_ ran
  · exact ⟨(Coherent.start auto).runs reached,watching.session,watching.observer,by simp⟩
  · intro past w event rest next split reached watched taken
    obtain ⟨y,action⟩ := event
    exact watched.keeps reached (only (y,action) (by simp [split])) taken

theorem onceOnly_exact {origin final : World D} {events : List (Event D)} (watching : Watching auto u device origin)
    (only : ∀ event ∈ events, event.1 = device → event.2.OnJournal) (ran : runs auto origin events = some final) :
    OnceOnly auto device origin events ↔
      Runs.Guarded (step auto) origin events (FreshUpload auto device origin) := by
  refine Runs.always_throughout_iff_guarded watching.once ?_ ran
  intro past w event rest next split reached once taken
  obtain ⟨y,action⟩ := event
  have watched := watching_runs watching (fun event member => only event (by simp [split,member])) reached
  exact watched.exact once (only (y,action) (by simp [split])) taken

def appeared : List (Event Unit) := [((),.signIn ⟨"u",some "U"⟩),((),.viewDidAppear)]

theorem watching_appeared {origin : World Unit} (ran : runs .letters World.start appeared = some origin) :
    Watching .letters "u" () origin := by
  obtain ⟨w,again,session,observers,empty⟩ : ∃ w, runs .letters World.start appeared = some w ∧
      (w.device ()).uid = some "u" ∧ (w.device ()).observers.map Observer.uid = ["u"] ∧ (w.device ()).ids = [] :=
    Runs.run_reaches (by decide)
  cases ran.symm.trans again
  obtain ⟨⟨node,queue⟩,one,same⟩ := List.map_eq_singleton_iff.mp observers
  subst same
  exact ⟨⟨appeared,ran⟩,session,⟨queue,one⟩,by simp [empty]⟩

theorem onceOnly_deleted :
    let events : List (Event Unit) := [((),.saveNewPost ⟨"one","Montréal","May 1",some ⟨some [255]⟩⟩),
      ((),.deliver 0),((),.deliver 0),((),.delete 0),((),.deliver 0)]
    ∃ origin, Watching .letters "u" () origin ∧ (OnceOnly .letters () origin events ↔
      Runs.Guarded (step .letters) origin events (FreshUpload .letters () origin)) := by
  intro events
  obtain ⟨origin,final,first,second,_⟩ : ∃ origin final, runs .letters World.start appeared = some origin ∧
      runs .letters origin events = some final ∧ True := Runs.run_continues (P := fun _ _ => True) (by decide)
  exact ⟨origin,watching_appeared first,
    onceOnly_exact (watching_appeared first) (by simp [events,Action.OnJournal]) second⟩

-- The record of a save is delivered before its upload ends: the post is listed
-- from the record and then appended once more.
theorem onceOnly_afterUpload_fails :
    let events : List (Event Unit) := [((),.saveNewPost ⟨"one","Montréal","May 1",some ⟨some [255]⟩⟩),
      ((),.deliver 0),((),.deliver 0),((),.uploadDone 0 true)]
    ∃ origin, Watching .letters "u" () origin ∧ ¬ OnceOnly .letters () origin events := by
  intro events
  obtain ⟨origin,final,first,second,twice⟩ : ∃ origin final, runs .letters World.start appeared = some origin ∧
      runs .letters origin events = some final ∧ (final.device ()).ids = [some "a",some "a"] :=
    Runs.run_continues (P := fun _ (final : World Unit) => (final.device ()).ids = [some "a",some "a"]) (by decide)
  refine ⟨origin,watching_appeared first,fun onceOnly => ?_⟩
  have once := onceOnly.1 events [] final (by simp) second
  simp [twice] at once

end Journey
