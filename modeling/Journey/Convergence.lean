import Journey.Coherence

namespace Journey

variable {D : Type} [DecidableEq D] {auto : AutoId} {w next : World D} {d y : D} {u : String} {action : Action}

def Action.Completes : Action → Prop
  | .uploadDone _ _ | .urlDone _ _ => True
  | _ => False

def IsDelivery (d : D) (event : Event D) : Prop := ∃ index, event = (d,.deliver index)

def settledAfter (d : D) (settled : Bool) (event : Event D) : Bool :=
  if event.1 = d then
    match event.2 with
    | .deliver _ => true
    | .uploadDone _ _ | .urlDone _ _ => false
    | _ => settled
  else settled

def Settled (d : D) (events : List (Event D)) : Bool := events.foldl (settledAfter d) false

structure Sharing (u : String) (w : World D) : Prop where
  session : ∀ d, (w.device d).uid = some u
  node : ∀ d, ∀ o ∈ (w.device d).observers, o.uid = u
  attached : ∀ d, (w.device d).observers ≠ []

def Device.Drained (d : Device) : Prop := ∀ o ∈ d.observers, o.queue = []

theorem settled_snoc (d : D) (events : List (Event D)) (event : Event D) :
    Settled d (events ++ [event]) = settledAfter d (Settled d events) event := by simp [Settled]

theorem Reacts.session {server : Server} {dev : Device} {reaction : Reaction}
    (rule : Reacts auto server dev action reaction) (keeps : action.KeepsSession) :
    (dev.after reaction.device).uid = dev.uid := by
  cases rule with
  | signIn | register | signOut => cases keeps
  | profileChanged signed => simp [Device.uid,Device.after,signed]
  | appearNamed | delete => simp [Device.uid,Device.after]
  | _ => rfl

theorem sends_node {request : Request} {own : Bool} {server : Server} {observers : List Observer}
    (here : ∀ uid, request.node = some uid → own = true → uid = u) (node : ∀ o ∈ observers, o.uid = u)
    (attached : observers ≠ []) :
    (∀ o ∈ request.sends own server observers, o.uid = u) ∧ request.sends own server observers ≠ [] := by
  cases request with
  | setValue uid | removeValue uid =>
      refine ⟨?_,by simpa [Request.sends] using attached⟩
      intro o member
      obtain ⟨old,inside,rfl⟩ := List.mem_map.mp member
      split <;> exact node old inside
  | putObject => exact ⟨node,attached⟩
  | observe uid =>
      cases own with
      | false => exact ⟨node,attached⟩
      | true =>
          refine ⟨?_,by simp [Request.sends]⟩
          intro o member
          rcases List.mem_append.mp member with old | new
          · exact node o old
          · rw [List.mem_singleton.mp new]
            exact here uid rfl rfl

theorem sends_drained {request : Request} {own : Bool} {server : Server} {observers : List Observer}
    (here : ∀ uid, request.node = some uid → uid = u) (node : ∀ o ∈ observers, o.uid = u) (attached : observers ≠ [])
    (drained : ∀ o ∈ request.sends own server observers, o.queue = []) :
    request.target = none ∧ ∀ o ∈ observers, o.queue = [] := by
  obtain ⟨first,inside⟩ := List.exists_mem_of_ne_nil observers attached
  cases request with
  | setValue uid | removeValue uid =>
      have sent := drained _ (List.mem_map_of_mem inside)
      simp [node first inside,here uid rfl] at sent
  | putObject => exact ⟨rfl,drained⟩
  | observe uid =>
      refine ⟨rfl,fun o member => drained o ?_⟩
      cases own with
      | false => exact member
      | true => exact List.mem_append_left _ member

theorem Sharing.settled {reaction : Reaction} (sharing : Sharing u w)
    (rule : Reacts auto w.server (w.device y) action reaction) :
    (∀ o ∈ ((w.settle y reaction.device).device d).observers, o.uid = u) ∧
      ((w.settle y reaction.device).device d).observers ≠ [] := by
  rw [settle_observers]
  split
  · rename_i same
    subst same
    rcases rule.observers with same | ⟨index,uid,snapshot,rest,_,waiting,same⟩
    · rw [same]
      exact ⟨sharing.node d,sharing.attached d⟩
    · rw [same]
      exact ⟨told_observers (sharing.node d) waiting id,by simpa using sharing.attached d⟩
  · exact ⟨sharing.node d,sharing.attached d⟩

omit [DecidableEq D] in
theorem Sharing.node_exact {reaction : Reaction} (sharing : Sharing u w)
    (rule : Reacts auto w.server (w.device y) action reaction) {request : Request} {uid : String}
    (issued : reaction.request = some request) (node : request.node = some uid) : uid = u :=
  Option.some.inj ((rule.node issued node).symm.trans (sharing.session y))

theorem Sharing.step (sharing : Sharing u w) (keeps : action.KeepsSession)
    (taken : step auto w (y,action) = some next) : Sharing u next := by
  obtain ⟨_,reaction,rule,rfl⟩ := step_iff.mp taken
  have observers (d : D) : (∀ o ∈ ((w.commit y reaction).device d).observers, o.uid = u) ∧
      ((w.commit y reaction).device d).observers ≠ [] := by
    obtain ⟨node,attached⟩ := sharing.settled (d := d) rule
    unfold World.commit
    cases issued : reaction.request with
    | none => exact ⟨node,attached⟩
    | some request =>
        simp only [serve_observers]
        exact sends_node (fun uid about _ => sharing.node_exact rule issued about) node attached
  refine ⟨fun d => ?_,fun d => (observers d).1,fun d => (observers d).2⟩
  by_cases same : d = y
  · subst same
    rw [Device.uid,commit_currentUser]
    exact (rule.session keeps).trans (sharing.session d)
  · have frame := congrArg Device.currentUser (commit_other w reaction same)
    simp only [local_currentUser] at frame
    rw [Device.uid,frame]
    exact sharing.session d

theorem Sharing.drained {reaction : Reaction} (sharing : Sharing u w)
    (rule : Reacts auto w.server (w.device y) action reaction) (drained : ((w.commit y reaction).device d).Drained) :
    reaction.request.bind Request.target = none ∧ ((w.settle y reaction.device).device d).Drained := by
  obtain ⟨node,attached⟩ := sharing.settled (d := d) rule
  unfold World.commit at drained
  cases issued : reaction.request with
  | none => rw [issued] at drained; exact ⟨rfl,drained⟩
  | some request =>
      rw [issued] at drained
      simp only [Device.Drained,serve_observers] at drained
      exact sends_drained (fun uid about => sharing.node_exact rule issued about) node attached drained

theorem served_posts (server : Server) {request : Option Request} (nothing : request.bind Request.target = none) :
    (server.served request).posts = server.posts := by
  cases request with
  | none => rfl
  | some request =>
      have target : request.target = none := nothing
      exact funext fun uid => apply_posts server (by simp [target])

theorem step_delivered {index : Nat} (coherent : Coherent auto w) (sharing : Sharing u w)
    (taken : step auto w (d,.deliver index) = some next) (drained : (next.device d).Drained) :
    next.server = w.server ∧ (next.device d).posts =
      if (w.server.posts u).rows = [] then (w.device d).posts
      else ((journal u w.server.log).map Post.fetched).reverse := by
  obtain ⟨_,reaction,rule,rfl⟩ := step_iff.mp taken
  obtain ⟨_,before⟩ := sharing.drained rule drained
  rw [Device.Drained,settle_observers,if_pos rfl] at before
  have current {uid : String} {snapshot : Snapshot} {rest : List Snapshot}
      (waiting : (w.device d).observers[index]? = some ⟨uid,snapshot :: rest⟩)
      (given : ∀ o ∈ (w.device d).observers.set index ⟨uid,rest⟩, o.queue = []) :
      uid = u ∧ snapshot = w.server.posts u := by
    have member := List.mem_of_getElem? waiting
    have last : rest = [] := given ⟨uid,rest⟩ (List.mem_set (List.getElem?_eq_some_iff.mp waiting).1 _)
    have node : uid = u := sharing.node d _ member
    subst last node
    exact ⟨rfl,Feed.ends_single (coherent.fed d _ member).ends⟩
  rw [commit_server,commit_posts]
  cases rule with
  | deliverEmpty waiting empty =>
      obtain ⟨_,rfl⟩ := current waiting before
      rw [if_pos empty]
      exact ⟨rfl,rfl⟩
  | deliver waiting nonempty reads =>
      obtain ⟨rfl,rfl⟩ := current waiting before
      rw [if_neg nonempty]
      cases reads.symm.trans ((coherent.sound.lists _).reads coherent.sound)
      exact ⟨rfl,rfl⟩
  | deliverTrap waiting mistyped =>
      obtain ⟨kept,lists⟩ := (coherent.fed d _ (List.mem_of_getElem? waiting)).lists _ List.mem_cons_self
      exact absurd (mistyped.symm.trans (lists.reads coherent.sound)) (by simp)

theorem step_calm (sharing : Sharing u w) (keeps : action.KeepsSession) (taken : step auto w (y,action) = some next)
    (drained : (next.device d).Drained) (other : ¬ IsDelivery d (y,action)) (calm : y = d → ¬ action.Completes) :
    next.server.posts = w.server.posts ∧ (w.device d).Drained ∧ (next.device d).posts = (w.device d).posts := by
  obtain ⟨_,reaction,rule,rfl⟩ := step_iff.mp taken
  obtain ⟨nothing,before⟩ := sharing.drained rule drained
  rw [Device.Drained,settle_observers] at before
  rw [commit_server]
  refine ⟨served_posts w.server nothing,?_⟩
  by_cases same : d = y
  · subst same
    rw [if_pos rfl] at before
    have observers : ((w.device d).after reaction.device).observers = (w.device d).observers := by
      rcases rule.observers with same | ⟨index,_,_,_,rfl,_⟩
      · exact same
      · exact absurd ⟨index,rfl⟩ other
    rw [observers] at before
    refine ⟨before,?_⟩
    rw [commit_posts]
    have session := sharing.session d
    cases rule with
    | signIn | register | signOut => cases keeps
    | appearOut nobody => simp [Device.uid,nobody] at session
    | appearNamed => simp [Device.after]
    | uploaded | profileUploaded | uploadFailed | urlFailed | urlFound | urlTrap => exact absurd trivial (calm rfl)
    | deliverEmpty | deliver => exact absurd ⟨_,rfl⟩ other
    | delete => cases nothing
    | _ => rfl
  · rw [if_neg same] at before
    exact ⟨before,by simpa only [local_posts] using congrArg Device.posts (commit_other w reaction same)⟩

-- A run of devices that share an account, to the point where every snapshot has
-- been delivered, with no completion after the last snapshot of its device.
structure SharedRun (auto : AutoId) (u : String) (origin : World D) (events : List (Event D)) (final : World D) :
    Prop where
  reached : ∃ past, runs auto World.start past = some origin
  sharing : Sharing u origin
  session : ∀ event ∈ events, event.2.KeepsSession
  ran : runs auto origin events = some final
  delivered : ∀ d, (final.device d).Drained
  handled : ∀ d, Settled d events = true

def EmptyAtLast (auto : AutoId) (d : D) (origin : World D) (events : List (Event D)) : Prop :=
  ∀ past event rest before, Runs.LastAt (IsDelivery d) events past event rest →
    runs auto origin past = some before → (before.device d).posts = []

def Shows (auto : AutoId) (u : String) (d : D) (origin : World D) (events : List (Event D)) (w : World D) : Prop :=
  ((w.server.posts u).rows ≠ [] → (w.device d).ListsRecords (w.server.posts u)) ∧
    ((w.server.posts u).rows = [] → ∃ past event rest before, Runs.LastAt (IsDelivery d) events past event rest ∧
      runs auto origin past = some before ∧ (w.device d).posts = (before.device d).posts)

theorem shows_step {origin : World D} {past : List (Event D)} {event : Event D} (coherent : Coherent auto w)
    (sharing : Sharing u w) (keeps : event.2.KeepsSession) (reached : runs auto origin past = some w)
    (shows : (w.device d).Drained → Settled d past = true → Shows auto u d origin past w)
    (taken : step auto w event = some next) (drained : (next.device d).Drained)
    (settled : Settled d (past ++ [event]) = true) : Shows auto u d origin (past ++ [event]) next := by
  obtain ⟨y,action⟩ := event
  by_cases delivery : IsDelivery d (y,action)
  · obtain ⟨index,same⟩ := delivery
    cases same
    obtain ⟨server,posts⟩ := step_delivered coherent sharing taken drained
    rw [Shows,server]
    refine ⟨fun nonempty => coherent.sound.listsRecords (posts.trans (if_neg nonempty)),fun empty => ?_⟩
    exact ⟨past,_,[],w,(Runs.lastAt_hit ⟨index,rfl⟩).mpr ⟨rfl,rfl,rfl⟩,reached,posts.trans (if_pos empty)⟩
  · have calm : y = d → ¬ action.Completes := by
      intro same completes
      subst same
      cases action <;> simp [settled_snoc,settledAfter,Action.Completes] at settled completes
    have before : Settled d past = true := by
      rw [settled_snoc,settledAfter] at settled
      by_cases same : y = d
      · subst same
        rw [if_pos rfl] at settled
        split at settled
        · rename_i index delivered
          simp only at delivered
          exact absurd ⟨index,by rw [delivered]⟩ delivery
        · cases settled
        · cases settled
        · exact settled
      · rwa [if_neg same] at settled
    obtain ⟨server,still,posts⟩ := step_calm sharing keeps taken drained delivery calm
    obtain ⟨full,empty⟩ := shows still before
    rw [Shows,Device.ListsRecords,posts,server]
    refine ⟨full,fun none => ?_⟩
    obtain ⟨front,last,rest,origin,at_last,earlier,same⟩ := empty none
    exact ⟨front,last,rest ++ [(y,action)],origin,Runs.lastAt_snoc at_last delivery,earlier,same⟩

theorem sharedRun_shows {origin final : World D} {events : List (Event D)}
    (shared : SharedRun auto u origin events final) (d : D) : Shows auto u d origin events final := by
  obtain ⟨past,reached⟩ := shared.reached
  have coherent := (Coherent.start auto).runs reached
  have all : Coherent auto final ∧ Sharing u final ∧
      ((final.device d).Drained → Settled d events = true → Shows auto u d origin events final) := by
    refine Runs.run_induction_within (I := fun events w => Coherent auto w ∧ Sharing u w ∧
      ((w.device d).Drained → Settled d events = true → Shows auto u d origin events w)) ?_ ?_ shared.ran
    · exact ⟨coherent,shared.sharing,fun _ settled => by simp [Settled] at settled⟩
    · intro past w event rest next split before ih taken
      obtain ⟨y,action⟩ := event
      obtain ⟨good,sharing,shows⟩ := ih
      have kept : action.KeepsSession := shared.session (y,action) (by simp [split])
      exact ⟨good.step taken,sharing.step kept taken,shows_step good sharing kept before shows taken⟩
  exact all.2.2 (shared.delivered d) (shared.handled d)

theorem convergence_exact {origin final : World D} {events : List (Event D)}
    (shared : SharedRun auto u origin events final) :
    (∀ d, (final.device d).ListsRecords (final.server.posts u)) ↔
      (final.server.posts u).rows ≠ [] ∨ ∀ d, EmptyAtLast auto d origin events := by
  by_cases empty : (final.server.posts u).rows = []
  · simp only [listsRecords_empty empty,empty,ne_eq,not_true_eq_false,false_or]
    refine forall_congr' fun d => ?_
    obtain ⟨past,event,rest,before,last,reached,same⟩ := (sharedRun_shows shared d).2 empty
    constructor
    · intro none first x others earlier at_last ran
      obtain ⟨rfl,rfl,rfl⟩ := Runs.lastAt_unique at_last last
      cases reached.symm.trans ran
      exact same.symm.trans none
    · exact fun emptied => same.trans (emptied past event rest before last reached)
  · exact iff_of_true (fun d => (sharedRun_shows shared d).1 empty) (.inl empty)

instance (d : Device) : Decidable d.Drained := inferInstanceAs (Decidable (∀ o ∈ d.observers, o.queue = []))

instance (w : World Bool) : Decidable (Sharing u w) :=
  decidable_of_iff ((∀ d, (w.device d).uid = some u) ∧ (∀ d, ∀ o ∈ (w.device d).observers, o.uid = u) ∧
    ∀ d, (w.device d).observers ≠ []) ⟨fun ⟨a,b,c⟩ => ⟨a,b,c⟩,fun sharing => ⟨sharing.1,sharing.2,sharing.3⟩⟩

def bothAppear : List (Event Bool) := [(false,.signIn ⟨"u",some "U"⟩),(true,.signIn ⟨"u",some "U"⟩),
  (false,.viewDidAppear),(true,.viewDidAppear)]

theorem convergence_oneSave :
    let events : List (Event Bool) := [(false,.saveNewPost ⟨"one","Montréal","May 1",some ⟨some [255]⟩⟩),
      (false,.deliver 0),(false,.deliver 0),(true,.deliver 0),(true,.deliver 0)]
    ∃ origin final, runs .letters origin events = some final ∧
      ((∀ d, (final.device d).ListsRecords (final.server.posts "u")) ↔
        (final.server.posts "u").rows ≠ [] ∨ ∀ d, EmptyAtLast .letters d origin events) := by
  intro events
  obtain ⟨origin,final,first,second,sharing,drained⟩ := Runs.run_continues
    (show (runs .letters World.start bothAppear).bind (fun origin => (runs .letters origin events).map fun final =>
      decide (Sharing "u" origin ∧ ∀ d, (final.device d).Drained)) = some true by decide)
  refine ⟨origin,final,second,convergence_exact ⟨⟨bothAppear,first⟩,sharing,?_,second,drained,by decide⟩⟩
  simp [events,Action.KeepsSession]

-- The last post is deleted on one device; the snapshot without children that the
-- other is given leaves the post in its list.
theorem convergence_lastDeleted_fails :
    let events : List (Event Bool) := [(false,.saveNewPost ⟨"one","Montréal","May 1",some ⟨some [255]⟩⟩),
      (false,.deliver 0),(false,.deliver 0),(true,.deliver 0),(true,.deliver 0),(false,.delete 0),
      (false,.deliver 0),(true,.deliver 0)]
    ∃ origin final, SharedRun .letters "u" origin events final ∧
      ¬ ∀ d, (final.device d).ListsRecords (final.server.posts "u") := by
  intro events
  obtain ⟨origin,final,first,second,sharing,drained,empty,left⟩ := Runs.run_continues
    (show (runs .letters World.start bothAppear).bind (fun origin => (runs .letters origin events).map fun final =>
      decide (Sharing "u" origin ∧ (∀ d, (final.device d).Drained) ∧ (final.server.posts "u").rows = [] ∧
        (final.device true).posts.length = 1)) = some true by decide)
  refine ⟨origin,final,⟨⟨bothAppear,first⟩,sharing,?_,second,drained,by decide⟩,fun lists => ?_⟩
  · simp [events,Action.KeepsSession]
  · simp [(listsRecords_empty empty).mp (lists true)] at left

end Journey
