import Journey.World

namespace Journey

-- The appearances of JourneyTVC and the deliveries to its observers. What an
-- observer will be told is decided when it is attached.
inductive Arrival where
  | viewDidAppear (queue : List Snapshot)
  | deliver (index : Nat)

def Arrival.action : Arrival → Action
  | .viewDidAppear _ => .viewDidAppear
  | .deliver index => .deliver index

def Arrival.queue : Arrival → List Snapshot
  | .viewDidAppear queue => queue
  | .deliver _ => []

def Arrival.appears : Arrival → Bool
  | .viewDidAppear _ => true
  | .deliver _ => false

def Device.watch (d : Device) (queue : List Snapshot) : Option Request → Device
  | some (.observe uid) => {d with observers := d.observers ++ [⟨uid,queue⟩]}
  | _ => d

def arrive (auto : AutoId) (server : Server) (d : Device) (event : Arrival) : Option Device :=
  if d.running then (react auto server d event.action).map fun reaction =>
    (d.after reaction.device).watch event.queue reaction.request
  else none

def WellFormed (snapshot : Snapshot) : Prop := (snapshot.rows.mapM fun row => readPost row.2).isSome = true

def effective (snapshot : Snapshot) : Bool := !snapshot.rows.isEmpty

def Device.greeted (d : Device) (name : String) : Device :=
  {({d with newUser := false} : Device).refresh with displayNameLabel := name}

def Device.replayed (d : Device) (snapshots : List Snapshot) : Device :=
  match (Feed.latest effective snapshots).bind fun snapshot => snapshot.rows.mapM fun row => readPost row.2 with
  | some posts => d.shown posts.reverse
  | none => d

variable {auto : AutoId} {server : Server} {d x y : Device} {user : User} {name : String} {event : Arrival}

theorem arrive_cases (signed : d.currentUser = some user) (named : user.displayName = some name)
    (taken : arrive auto server d event = some x) : d.running = true ∧
      ((∃ queue, event = .viewDidAppear queue ∧
          x = {d.greeted name with observers := d.observers ++ [⟨user.uid,queue⟩]}) ∨
        ∃ index uid snapshot rest, event = .deliver index ∧ d.observers[index]? = some ⟨uid,snapshot :: rest⟩ ∧
          x = d.after (fetchData {d with observers := d.observers.set index ⟨uid,rest⟩} snapshot)) := by
  obtain ⟨running,taken⟩ := Option.ite_none_right_eq_some.mp taken
  obtain ⟨reaction,reacted,rfl⟩ := Option.map_eq_some_iff.mp taken
  refine ⟨running,?_⟩
  cases event with
  | viewDidAppear queue =>
      cases reacted
      refine .inl ⟨queue,rfl,?_⟩
      simp [Arrival.queue,appearance_named signed named,Device.watch,Device.after,Device.greeted]
  | deliver index =>
      right
      simp only [Arrival.action,react] at reacted
      split at reacted
      · rename_i uid snapshot rest waiting
        cases reacted
        exact ⟨index,uid,snapshot,rest,rfl,waiting,rfl⟩
      · cases reacted

def Device.Shows (d result : Device) : Prop :=
  d.posts = result.posts ∧ d.table = result.table ∧ d.postCountLabel = result.postCountLabel

def Device.Fresh (d : Device) : Prop :=
  (d.posts ≠ [] → d.table = d.posts) ∧ (d.posts = [] → d.postCountLabel = emptyLabel)

theorem refresh_fresh (d : Device) : d.refresh.Fresh := by
  unfold Device.refresh
  split
  · rename_i nonempty
    exact ⟨fun _ => rfl,fun empty => absurd empty (List.length_pos_iff.mp nonempty)⟩
  · rename_i empty
    exact ⟨fun nonempty => absurd (List.length_pos_iff.mpr nonempty) empty,fun _ => rfl⟩

theorem refresh_shows {result : Device} (fresh : result.Fresh) (shows : d.Shows result) : d.refresh.Shows result := by
  obtain ⟨posts,table,label⟩ := shows
  unfold Device.refresh
  split
  · rename_i nonempty
    have listed : result.posts ≠ [] := posts ▸ List.length_pos_iff.mp nonempty
    exact ⟨posts,posts.trans (fresh.1 listed).symm,label⟩
  · rename_i empty
    have nothing : result.posts = [] := by simpa [posts] using empty
    exact ⟨posts,table,(fresh.2 nothing).symm⟩

theorem effective_iff {snapshot : Snapshot} : effective snapshot = true ↔ snapshot.rows ≠ [] := by simp [effective]

theorem reads_nonempty {snapshot : Snapshot} {posts : List Post} (loud : effective snapshot = true)
    (reads : snapshot.rows.mapM (fun row => readPost row.2) = some posts) : posts ≠ [] := by
  obtain ⟨child,rest,rows⟩ := List.exists_cons_of_ne_nil (effective_iff.mp loud)
  rw [rows,List.mapM_cons] at reads
  obtain ⟨post,_,reads⟩ := Option.bind_eq_some_iff.mp reads
  obtain ⟨others,_,reads⟩ := Option.bind_eq_some_iff.mp reads
  cases reads
  exact List.cons_ne_nil _ _

theorem replayed_fresh (fresh : d.Fresh) (snapshots : List Snapshot) : (d.replayed snapshots).Fresh := by
  unfold Device.replayed
  split
  · rename_i posts found
    obtain ⟨snapshot,latest,reads⟩ := Option.bind_eq_some_iff.mp found
    have nonempty : posts ≠ [] := reads_nonempty (Feed.latest_effective latest) reads
    exact ⟨fun _ => rfl,fun empty => absurd (List.reverse_eq_nil_iff.mp empty) nonempty⟩
  · exact fresh

-- Some observer has still to be told of children, or the device already shows
-- what it will show when nothing is left.
structure Replaying (snapshots : List Snapshot) (user : User) (result d : Device) : Prop where
  running : d.running = true
  currentUser : d.currentUser = some user
  queues : ∀ o ∈ d.observers, o.queue <:+ snapshots
  shows : (∃ o ∈ d.observers, ∃ snapshot ∈ o.queue, effective snapshot = true) ∨ d.Shows result

theorem pending_set {observers : List Observer} {index : Nat} {uid : String} {snapshot : Snapshot}
    {rest : List Snapshot} (waiting : observers[index]? = some ⟨uid,snapshot :: rest⟩)
    (silent : effective snapshot = false)
    (pending : ∃ o ∈ observers, ∃ snapshot ∈ o.queue, effective snapshot = true) :
    ∃ o ∈ observers.set index ⟨uid,rest⟩, ∃ snapshot ∈ o.queue, effective snapshot = true := by
  obtain ⟨o,member,told,inside,loud⟩ := pending
  obtain ⟨other,found⟩ := List.mem_iff_getElem?.mp member
  by_cases same : index = other
  · subst same
    obtain rfl := Option.some.inj (found.symm.trans waiting)
    rcases List.mem_cons.mp inside with rfl | later
    · exact absurd (silent.symm.trans loud) Bool.false_ne_true
    · exact ⟨_,List.mem_set (List.getElem?_eq_some_iff.mp waiting).1 _,told,later,loud⟩
  · have kept : (observers.set index ⟨uid,rest⟩)[other]? = some o := by rw [List.getElem?_set_ne same,found]
    exact ⟨o,List.mem_of_getElem? kept,told,inside,loud⟩

theorem replayed_latest {snapshots : List Snapshot} {snapshot : Snapshot} {posts : List Post}
    (latest : Feed.latest effective snapshots = some snapshot)
    (reads : snapshot.rows.mapM (fun row => readPost row.2) = some posts) :
    d.replayed snapshots = d.shown posts.reverse := by
  simp [Device.replayed,latest,reads]

theorem deliver_replaying {snapshots rest : List Snapshot} {snapshot : Snapshot} {first : Device} {index : Nat}
    {uid : String} (wellFormed : WellFormed snapshot)
    (replaying : Replaying snapshots user (first.replayed snapshots) d)
    (waiting : d.observers[index]? = some ⟨uid,snapshot :: rest⟩) :
    Replaying snapshots user (first.replayed snapshots)
      (d.after (fetchData {d with observers := d.observers.set index ⟨uid,rest⟩} snapshot)) := by
  obtain ⟨running,signed,queues,shows⟩ := replaying
  have told := queues _ (List.mem_of_getElem? waiting)
  have left : ∀ o ∈ d.observers.set index ⟨uid,rest⟩, o.queue <:+ snapshots :=
    told_observers queues waiting (List.suffix_cons snapshot rest).trans
  cases loud : effective snapshot with
  | false =>
      have empty : snapshot.rows = [] := by simpa [effective] using loud
      rw [fetchData_empty _ _ empty]
      exact ⟨running,signed,left,shows.imp_left (pending_set waiting loud)⟩
  | true =>
      obtain ⟨posts,reads⟩ := Option.isSome_iff_exists.mp wellFormed
      rw [fetchData_shown _ _ posts (effective_iff.mp loud) reads]
      refine ⟨running,signed,left,?_⟩
      by_cases last : ∀ later ∈ rest, effective later = false
      · -- Nothing behind it has children, so it is the last of all that has.
        right
        rw [replayed_latest (Feed.latest_suffix told loud last) reads]
        exact ⟨rfl,rfl,rfl⟩
      · left
        simp only [not_forall,Bool.not_eq_false] at last
        obtain ⟨later,inside,loud⟩ := last
        exact ⟨_,List.mem_set (List.getElem?_eq_some_iff.mp waiting).1 _,later,inside,loud⟩

theorem fetchData_observers (d : Device) {snapshot : Snapshot} (wellFormed : WellFormed snapshot) :
    ∃ next, fetchData d snapshot = some next ∧ next.observers = d.observers := by
  by_cases empty : snapshot.rows = []
  · exact ⟨d,fetchData_empty d snapshot empty,rfl⟩
  · obtain ⟨posts,reads⟩ := Option.isSome_iff_exists.mp wellFormed
    exact ⟨_,fetchData_shown d snapshot posts empty reads,rfl⟩

theorem arrive_replaying {snapshots : List Snapshot} {first : Device} (fresh : first.Fresh)
    (named : user.displayName = some name) (wellFormed : ∀ snapshot ∈ snapshots, WellFormed snapshot)
    (suffix : ∀ queue, event = .viewDidAppear queue → queue <:+ snapshots)
    (replaying : Replaying snapshots user (first.replayed snapshots) d) (taken : arrive auto server d event = some x) :
    Replaying snapshots user (first.replayed snapshots) x ∧
      x.observers.length = d.observers.length + [event].countP Arrival.appears := by
  rcases (arrive_cases replaying.currentUser named taken).2 with
    ⟨queue,rfl,rfl⟩ | ⟨index,uid,snapshot,rest,rfl,waiting,rfl⟩
  · obtain ⟨running,signed,queues,shows⟩ := replaying
    refine ⟨⟨?_,?_,?_,?_⟩,by simp [Arrival.appears]⟩
    · simpa [Device.greeted] using running
    · simpa [Device.greeted] using signed
    · intro o member
      rcases List.mem_append.mp member with old | new
      · exact queues o old
      · obtain rfl := List.mem_singleton.mp new
        exact suffix queue rfl
    · refine shows.imp ?_ ?_
      · intro pending
        obtain ⟨o,member,told⟩ := pending
        exact ⟨o,List.mem_append_left _ member,told⟩
      · exact refresh_shows (d := {d with newUser := false}) (replayed_fresh fresh snapshots)
  · have told := replaying.queues _ (List.mem_of_getElem? waiting)
    have reads := wellFormed _ (told.mem List.mem_cons_self)
    refine ⟨deliver_replaying reads replaying waiting,?_⟩
    obtain ⟨next,fetched,same⟩ := fetchData_observers {d with observers := d.observers.set index ⟨uid,rest⟩} reads
    simp [fetched,Device.after,same,Arrival.appears]

def Device.watching (d : Device) (user : User) (name : String) (snapshots : List Snapshot) : Device :=
  {d.greeted name with observers := [⟨user.uid,snapshots⟩]}

theorem arrive_first {snapshots : List Snapshot} (running : d.running = true) (alone : d.observers = [])
    (signed : d.currentUser = some user) (named : user.displayName = some name) :
    arrive auto server d (.viewDidAppear snapshots) = some (d.watching user name snapshots) := by
  simp [arrive,running,Arrival.action,Arrival.queue,react,appearance_named signed named,Device.after,Device.watch,alone,
    Device.watching,Device.greeted]

theorem watching_replaying {snapshots : List Snapshot} (running : d.running = true)
    (signed : d.currentUser = some user) :
    Replaying snapshots user ((d.watching user name snapshots).replayed snapshots)
      (d.watching user name snapshots) := by
  refine ⟨?_,?_,?_,?_⟩
  · simpa [Device.watching,Device.greeted] using running
  · simpa [Device.watching,Device.greeted] using signed
  · intro o member
    obtain rfl := List.mem_singleton.mp member
    exact List.suffix_rfl
  · by_cases loud : ∃ snapshot ∈ snapshots, effective snapshot = true
    · exact .inl ⟨_,List.mem_singleton_self _,loud⟩
    · right
      have silent : ∀ snapshot ∈ snapshots, effective snapshot = false := by simpa using loud
      simp [Device.replayed,Feed.latest_none silent,Device.Shows]

theorem replaying_done {snapshots : List Snapshot} {result : Device} (replaying : Replaying snapshots user result d)
    (delivered : ∀ o ∈ d.observers, o.queue = []) : d.Shows result := by
  rcases replaying.shows with ⟨o,member,snapshot,told,_⟩ | shows
  · rw [delivered o member] at told
    exact absurd told List.not_mem_nil
  · exact shows

theorem run_replaying {snapshots : List Snapshot} {first final : Device} {events : List Arrival} (fresh : first.Fresh)
    (named : user.displayName = some name) (wellFormed : ∀ snapshot ∈ snapshots, WellFormed snapshot)
    (suffixes : ∀ queue, .viewDidAppear queue ∈ events → queue <:+ snapshots)
    (start : Replaying snapshots user (first.replayed snapshots) first)
    (ran : Runs.run (arrive auto server) first events = some final) :
    Replaying snapshots user (first.replayed snapshots) final ∧
      final.observers.length = first.observers.length + events.countP Arrival.appears := by
  refine Runs.run_induction_within (I := fun past d => Replaying snapshots user (first.replayed snapshots) d ∧
    d.observers.length = first.observers.length + past.countP Arrival.appears) ⟨start,rfl⟩ ?_ ran
  intro past d event rest next split reached both taken
  obtain ⟨replaying,counted⟩ := both
  have suffix : ∀ queue, event = .viewDidAppear queue → queue <:+ snapshots := by
    intro queue same
    exact suffixes queue (by simp [split,same])
  obtain ⟨replaying,more⟩ := arrive_replaying fresh named wellFormed suffix replaying taken
  refine ⟨replaying,?_⟩
  rw [more,counted,List.countP_append,Nat.add_assoc]

theorem arrive_deliver {index : Nat} {uid : String} {snapshot : Snapshot} {rest : List Snapshot}
    (running : d.running = true) (waiting : d.observers[index]? = some ⟨uid,snapshot :: rest⟩) :
    arrive auto server d (.deliver index) =
      some (d.after (fetchData {d with observers := d.observers.set index ⟨uid,rest⟩} snapshot)) := by
  simp [arrive,running,Arrival.action,react,waiting,Device.watch]

theorem run_single {snapshots queue : List Snapshot} {first : Device} {uid : String}
    (wellFormed : ∀ snapshot ∈ snapshots, WellFormed snapshot)
    (replaying : Replaying snapshots user (first.replayed snapshots) d) (only : d.observers = [⟨uid,queue⟩]) :
    ∃ single, Runs.run (arrive auto server) d (List.replicate queue.length (.deliver 0)) = some single ∧
      single.observers = [⟨uid,[]⟩] := by
  induction queue generalizing d with
  | nil => exact ⟨d,rfl,only⟩
  | cons snapshot rest ih =>
      have waiting : d.observers[0]? = some ⟨uid,snapshot :: rest⟩ := by simp [only]
      have told := replaying.queues _ (List.mem_of_getElem? waiting)
      have reads := wellFormed _ (told.mem List.mem_cons_self)
      obtain ⟨next,fetched,same⟩ :=
        fetchData_observers {d with observers := d.observers.set 0 ⟨uid,rest⟩} reads
      have after := deliver_replaying reads replaying waiting
      simp only [fetched,Device.after] at after
      have taken : arrive auto server d (.deliver 0) = some next := by
        rw [arrive_deliver replaying.running waiting,fetched]
        rfl
      obtain ⟨single,ran,done⟩ := ih after (by simp [same,only])
      refine ⟨single,?_,done⟩
      simpa only [List.length_cons,List.replicate_succ,Runs.run,taken,Option.bind_some] using ran

theorem observers_unobservable (user : User) {snapshots : List Snapshot} {events : List Arrival} {final : Device}
    (running : d.running = true) (alone : d.observers = []) (signed : d.currentUser = some user)
    (named : user.displayName = some name) (wellFormed : ∀ snapshot ∈ snapshots, WellFormed snapshot)
    (suffixes : ∀ queue, .viewDidAppear queue ∈ events → queue <:+ snapshots)
    (ran : Runs.run (arrive auto server) d (.viewDidAppear snapshots :: events) = some final)
    (delivered : ∀ o ∈ final.observers, o.queue = []) :
    final.running = true ∧ final.observers.length = events.countP Arrival.appears + 1 ∧
      ∃ single, Runs.run (arrive auto server) d
          (.viewDidAppear snapshots :: List.replicate snapshots.length (.deliver 0)) = some single ∧
        single.observers = [⟨user.uid,[]⟩] ∧ final.Shows single := by
  have first : arrive auto server d (.viewDidAppear snapshots) = some (d.watching user name snapshots) :=
    arrive_first running alone signed named
  have start : Replaying snapshots user ((d.watching user name snapshots).replayed snapshots)
      (d.watching user name snapshots) := watching_replaying running signed
  have fresh : (d.watching user name snapshots).Fresh := refresh_fresh _
  simp only [Runs.run,first,Option.bind_some] at ran ⊢
  obtain ⟨replaying,counted⟩ := run_replaying fresh named wellFormed suffixes start ran
  obtain ⟨single,ranAlone,done⟩ : ∃ single, Runs.run (arrive auto server) (d.watching user name snapshots)
      (List.replicate snapshots.length (.deliver 0)) = some single ∧ single.observers = [⟨user.uid,[]⟩] :=
    run_single wellFormed start rfl
  have others : ∀ queue, .viewDidAppear queue ∈ List.replicate snapshots.length (Arrival.deliver 0) →
      queue <:+ snapshots := fun queue member => Arrival.noConfusion (List.eq_of_mem_replicate member)
  have same := replaying_done (run_replaying fresh named wellFormed others start ranAlone).1 (by simp [done])
  have shows := replaying_done replaying delivered
  refine ⟨replaying.running,by rw [counted]; exact Nat.add_comm _ _,single,ranAlone,done,?_⟩
  exact ⟨shows.1.trans same.1.symm,shows.2.1.trans same.2.1.symm,shows.2.2.trans same.2.2.symm⟩

-- The second appearance is told an older list after the first was told that the
-- last record is gone.
theorem observers_older_last :
    let post : Post := ⟨some "k1","text","here","today",none⟩
    let d : Device := {Device.launched with currentUser := some ⟨"u",some "Ann"⟩,posts := [post,post]}
    let snapshots : List Snapshot := [KeyedStore.empty.put "k1" (record post),.empty]
    let events : List Arrival := [.deliver 0,.viewDidAppear snapshots,.deliver 0,.deliver 1,.deliver 1]
    ∃ final, Runs.run (arrive .letters .empty) d (.viewDidAppear snapshots :: events) = some final ∧
      final.running = true ∧ final.observers.length = events.countP Arrival.appears + 1 ∧
      ∃ single, Runs.run (arrive .letters .empty) d
          (.viewDidAppear snapshots :: List.replicate snapshots.length (.deliver 0)) = some single ∧
        single.observers = [⟨"u",[]⟩] ∧ final.Shows single := by
  intro post d snapshots events
  obtain ⟨final,ran,delivered⟩ : ∃ final, Runs.run (arrive .letters .empty) d
      (.viewDidAppear snapshots :: events) = some final ∧ ∀ o ∈ final.observers, o.queue = [] :=
    Runs.run_reaches (by decide)
  have wellFormed : ∀ snapshot ∈ snapshots, WellFormed snapshot := by
    intro snapshot member
    rcases List.mem_cons.mp member with rfl | last
    · rfl
    · obtain rfl := List.mem_singleton.mp last
      rfl
  have suffixes : ∀ queue, .viewDidAppear queue ∈ events → queue <:+ snapshots := by
    intro queue member
    simp only [events,List.mem_cons,Arrival.viewDidAppear.injEq,reduceCtorEq,false_or,List.not_mem_nil,
      or_false] at member
    exact member ▸ List.suffix_rfl
  exact ⟨final,ran,observers_unobservable ⟨"u",some "Ann"⟩ rfl rfl rfl rfl wellFormed suffixes ran delivered⟩

end Journey
