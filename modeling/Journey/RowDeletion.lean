import Journey.World

namespace Journey

variable {D : Type} {w next : World D} {d : D} {user : User} {row index : Nat}

theorem reverse_eraseIdx {xs : List α} {i : Nat} (inside : i < xs.length) :
    xs.reverse.eraseIdx i = (xs.eraseIdx (xs.length - 1 - i)).reverse := by
  rw [List.eraseIdx_eq_take_drop_succ,List.eraseIdx_eq_take_drop_succ,List.take_reverse,List.drop_reverse,
    List.reverse_append]
  have upper : xs.length - i = xs.length - 1 - i + 1 := by omega
  have lower : xs.length - (i + 1) = xs.length - 1 - i := by omega
  rw [upper,lower]

structure Device.Mirrors (d : Device) (snapshot : Snapshot) : Prop where
  running : d.running = true
  posts : snapshot.rows.mapM (fun row => readPost row.2) = some d.posts.reverse
  rows : d.table.length = snapshot.rows.length

structure RowRemoved (uid : String) (row : Nat) (before after : World D) : Prop where
  inside : row < (before.server.posts uid).rows.length
  record : (after.server.posts uid).rows =
    (before.server.posts uid).rows.eraseIdx ((before.server.posts uid).rows.length - 1 - row)
  others : ∀ owner, owner ≠ uid → after.server.posts owner = before.server.posts owner
  objects : after.server.objects = before.server.objects

structure Mirroring (user : User) (d : D) (kept : List Post) (w : World D) : Prop where
  running : (w.device d).running = true
  signed : (w.device d).currentUser = some user
  named : ∀ post ∈ kept, post.id.isSome = true
  rows : (w.server.posts user.uid).rows = kept.map Post.entry
  posts : (w.device d).posts = (kept.map Post.fetched).reverse
  table : (w.device d).table = (w.device d).posts
  told : ∀ o ∈ (w.device d).observers, ∀ snapshot ∈ o.queue, snapshot = w.server.posts user.uid

theorem Mirroring.mirrors {kept : List Post} (mirroring : Mirroring user d kept w) :
    (w.device d).Mirrors (w.server.posts user.uid) where
  running := mirroring.running
  posts := by rw [mirroring.rows,mapM_entry mirroring.named,mirroring.posts,List.reverse_reverse]
  rows := by simp [mirroring.table,mirroring.posts,mirroring.rows]

theorem Mirroring.atRow {kept : List Post} (mirroring : Mirroring user d kept w) {post : Post} {key : String}
    (found : (w.device d).posts[row]? = some post) (named : post.id = some key) :
    row < kept.length ∧ ∃ value, (w.server.posts user.uid).rows[kept.length - 1 - row]? = some (key,value) := by
  rw [mirroring.posts] at found
  have inside : row < kept.length := by simpa using (List.getElem?_eq_some_iff.mp found).1
  rw [List.getElem?_reverse (by simpa using inside),List.length_map,List.getElem?_map] at found
  obtain ⟨old,here,rfl⟩ := Option.map_eq_some_iff.mp found
  refine ⟨inside,record old,?_⟩
  have isKey : old.id = some key := named
  simp [mirroring.rows,here,Post.entry,isKey]

theorem Mirroring.shown {kept : List Post} (mirroring : Mirroring user d kept w)
    (inside : row < (w.device d).table.length) :
    ∃ post key, (w.device d).posts[row]? = some post ∧ post.id = some key := by
  rw [mirroring.table] at inside
  obtain ⟨post,found⟩ : ∃ post, (w.device d).posts[row]? = some post := ⟨_,List.getElem?_eq_getElem inside⟩
  have member := List.mem_of_getElem? found
  rw [mirroring.posts] at member
  obtain ⟨old,before,same⟩ := List.mem_map.mp (List.mem_reverse.mp member)
  obtain ⟨key,isKey⟩ := Option.isSome_iff_exists.mp (mirroring.named old before)
  exact ⟨post,key,found,same ▸ isKey⟩

theorem Mirroring.deletes {auto : AutoId} {kept : List Post} (mirroring : Mirroring user d kept w) {reaction : Reaction}
    (rule : Reacts auto w.server (w.device d) (.delete row) reaction) :
    ∃ post key, (w.device d).posts[row]? = some post ∧ post.id = some key ∧
      reaction = ⟨some (.removeValue user.uid key),some ((w.device d).without row)⟩ := by
  cases rule with
  | @delete _ signer post key inside signed found named rows =>
      cases signed.symm.trans mirroring.signed
      exact ⟨post,key,found,named,rfl⟩
  | deleteRaise _ _ _ _ rows => exact absurd (congrArg List.length mirroring.table) rows
  | deleteTrap inside missing =>
      obtain ⟨post,key,found,named⟩ := mirroring.shown inside
      rcases missing with nobody | lost
      · cases nobody.symm.trans mirroring.signed
      · simp [found,named] at lost

variable [DecidableEq D] {auto : AutoId}

theorem removed_told {key : String} {outcome : Device} (same : outcome.observers = (w.device d).observers)
    (drained : ∀ o ∈ (w.device d).observers, o.queue = []) :
    let next := w.commit d ⟨some (.removeValue user.uid key),some outcome⟩
    ∀ o ∈ (next.device d).observers, ∀ snapshot ∈ o.queue, snapshot = next.server.posts user.uid := by
  intro next o member snapshot told
  have sent : (next.device d).observers = (w.device d).observers.map fun o => if o.uid = user.uid then
      {o with queue := o.queue ++ [next.server.posts user.uid]} else o := by
    simp only [next,World.commit,serve_observers,settle_observers,if_true,Device.after,same]
    rfl
  rw [sent] at member
  obtain ⟨old,before,rfl⟩ := List.mem_map.mp member
  split at told
  · simpa [drained old before] using told
  · simp [drained old before] at told

theorem without_table {dev : Device} (same : dev.table = dev.posts) (row : Nat) :
    (dev.without row).table = dev.posts.eraseIdx row := by
  rw [Device.without,refresh_table]
  split
  · rw [same]
  · rfl

theorem step_delete {kept : List Post} (mirroring : Mirroring user d kept w)
    (drained : ∀ o ∈ (w.device d).observers, o.queue = []) (taken : step auto w (d,.delete row) = some next) :
    Mirroring user d (kept.eraseIdx (kept.length - 1 - row)) next ∧ RowRemoved user.uid row w next := by
  obtain ⟨running,reaction,rule,rfl⟩ := step_iff.mp taken
  obtain ⟨post,key,found,named,rfl⟩ := mirroring.deletes rule
  obtain ⟨inside,value,here⟩ := mirroring.atRow found named
  have counted : (w.server.posts user.uid).rows.length = kept.length := by simp [mirroring.rows]
  have removed : ((w.server.posts user.uid).erase key).rows =
      (w.server.posts user.uid).rows.eraseIdx (kept.length - 1 - row) := KeyedStore.erase_index _ here
  constructor
  · constructor
    · simpa [Device.after] using running
    · simpa [Device.after] using mirroring.signed
    · exact fun post member => mirroring.named post (List.mem_of_mem_eraseIdx member)
    · simp only [commit_server,served_some,Server.apply,Function.update_self,removed,mirroring.rows,List.eraseIdx_map]
    · have below : row < (kept.map Post.fetched).length := by simpa using inside
      simp only [commit_posts,Device.after,without_posts,mirroring.posts]
      rw [reverse_eraseIdx below,List.length_map,List.eraseIdx_map]
    · simp [Device.after,without_table mirroring.table]
    · exact removed_told (without_observers _ _) drained
  · constructor
    · rw [counted]; exact inside
    · simp only [commit_server,served_some,Server.apply,Function.update_self,removed,counted]
    · intro owner other
      simp only [commit_server,served_some,Server.apply,Function.update_of_ne other]
    · simp [Server.apply]

theorem Mirroring.settled {kept : List Post} (mirroring : Mirroring user d kept w) {outcome : Device}
    (running : outcome.running = true) (signed : outcome.currentUser = some user)
    (posts : outcome.posts = (w.device d).posts) (table : outcome.table = (w.device d).posts)
    (told : ∀ o ∈ outcome.observers, ∀ snapshot ∈ o.queue, snapshot = w.server.posts user.uid) :
    Mirroring user d kept (w.commit d ⟨none,some outcome⟩) where
  running := by simpa [Device.after] using running
  signed := by simpa [Device.after] using signed
  named := mirroring.named
  rows := mirroring.rows
  posts := by simpa [Device.after,posts] using mirroring.posts
  table := by simp [Device.after,posts,table]
  told := by simpa [World.commit,settle_observers,Device.after,World.settle] using told

theorem step_deliver {kept : List Post} (mirroring : Mirroring user d kept w)
    (taken : step auto w (d,.deliver index) = some next) :
    Mirroring user d kept next ∧ (next.device d).posts = (w.device d).posts ∧ next.server = w.server := by
  obtain ⟨running,reaction,rule,rfl⟩ := step_iff.mp taken
  have reads := mapM_entry mirroring.named
  rw [← mirroring.rows] at reads
  cases rule with
  | deliverEmpty waiting empty =>
      have told := told_observers mirroring.told waiting fun all s inside => all s (List.mem_cons_of_mem _ inside)
      exact ⟨mirroring.settled running mirroring.signed rfl mirroring.table told,by simp [Device.after],by simp⟩
  | deliver waiting nonempty reads' =>
      obtain rfl := mirroring.told _ (List.mem_of_getElem? waiting) _ List.mem_cons_self
      cases reads.symm.trans reads'
      have told := told_observers mirroring.told waiting fun all s inside => all s (List.mem_cons_of_mem _ inside)
      have same := mirroring.posts.symm
      refine ⟨mirroring.settled running mirroring.signed same same told,?_,by simp⟩
      simpa [Device.after,Device.shown] using same
  | deliverTrap waiting mistyped =>
      obtain rfl := mirroring.told _ (List.mem_of_getElem? waiting) _ List.mem_cons_self
      cases reads.symm.trans mistyped

-- Rows are deleted one by one: every snapshot that a deletion has caused is
-- delivered before the next.
def OneByOne (d : D) (w : World D) : Event D → Prop
  | (device,.delete _) => device = d ∧ ∀ o ∈ (w.device d).observers, o.queue = []
  | (device,.deliver _) => device = d
  | _ => False

def DeletesRecord (uid : String) (d : D) (before : World D) (event : Event D) (after : World D) : Prop :=
  match event.2 with
  | .delete row => RowRemoved uid row before after
  | _ => (after.device d).posts = (before.device d).posts ∧ after.server = before.server

theorem step_oneByOne {kept : List Post} {event : Event D} (mirroring : Mirroring user d kept w)
    (permitted : OneByOne d w event) (taken : step auto w event = some next) :
    (∃ kept, Mirroring user d kept next) ∧ DeletesRecord user.uid d w event next := by
  obtain ⟨device,action⟩ := event
  cases action with
  | delete row =>
      obtain ⟨rfl,drained⟩ := permitted
      obtain ⟨after,removed⟩ := step_delete mirroring drained taken
      exact ⟨⟨_,after⟩,removed⟩
  | deliver index =>
      obtain rfl := permitted
      obtain ⟨after,same⟩ := step_deliver mirroring taken
      exact ⟨⟨_,after⟩,same⟩
  | _ => exact absurd permitted id

instance (w : World D) (event : Event D) : Decidable (OneByOne d w event) := by
  unfold OneByOne
  split <;> infer_instance

theorem written_kept {rows : List (String × Child)}
    (written : ∀ row ∈ rows, ∃ post : Post, post.id = some row.1 ∧ row.2 = record post) :
    ∃ kept : List Post, (∀ post ∈ kept, post.id.isSome = true) ∧ rows = kept.map Post.entry := by
  induction rows with
  | nil => exact ⟨[],by simp,rfl⟩
  | cons row rest ih =>
      obtain ⟨post,isKey,value⟩ := written row List.mem_cons_self
      obtain ⟨kept,named,rows⟩ := ih fun other member => written other (List.mem_cons_of_mem _ member)
      refine ⟨post :: kept,?_,?_⟩
      · intro other member
        rcases List.mem_cons.mp member with rfl | old
        · simp [isKey]
        · exact named other old
      · have entry : post.entry = row := by simp [Post.entry,isKey,← value]
        rw [List.map_cons,entry,rows]

theorem deletion_commutes (user : User) {before : Device} {events : List (Event D)}
    (content : (w.server.posts user.uid).rows ≠ [])
    (written : ∀ row ∈ (w.server.posts user.uid).rows, ∃ post : Post, post.id = some row.1 ∧ row.2 = record post)
    (fetched : fetchData before (w.server.posts user.uid) = some (w.device d))
    (running : (w.device d).running = true) (signed : (w.device d).currentUser = some user)
    (current : ∀ o ∈ (w.device d).observers, ∀ snapshot ∈ o.queue, snapshot = w.server.posts user.uid)
    (oneByOne : Runs.Guarded (step auto) w events fun _ w event => OneByOne d w event) :
    Runs.Always (step auto) w events (fun _ w => (w.device d).Mirrors (w.server.posts user.uid)) ∧
      Runs.Throughout (step auto) w events fun _ w event next => DeletesRecord user.uid d w event next := by
  obtain ⟨kept,named,rows⟩ := written_kept written
  have reads := mapM_entry named
  rw [← rows] at reads
  have shown := Option.some.inj (fetched.symm.trans (fetchData_shown before _ _ content reads))
  have start : Mirroring user d kept w :=
    ⟨running,signed,named,rows,by rw [shown]; rfl,by rw [shown]; rfl,current⟩
  have always : Runs.Always (step auto) w events fun _ w => ∃ kept, Mirroring user d kept w := by
    refine Runs.always_of_guarded ⟨kept,start⟩ ?_ oneByOne
    intro past w event rest next split reached mirroring permitted taken
    obtain ⟨kept,mirroring⟩ := mirroring
    exact (step_oneByOne mirroring permitted taken).1
  constructor
  · intro past rest w split reached
    obtain ⟨kept,mirroring⟩ := always past rest w split reached
    exact mirroring.mirrors
  · intro past event rest w next split reached taken
    obtain ⟨kept,mirroring⟩ := always past (event :: rest) w split reached
    exact (step_oneByOne mirroring (oneByOne past event rest w split reached) taken).2

-- Two records, then none: the snapshot of the empty node is the one that the
-- closure ignores.
theorem deletion_commutes_toEmpty :
    let post (key : String) : Post := ⟨some key,"text","here","today",none⟩
    let content : Snapshot := (KeyedStore.empty.put "k1" (record (post "k1"))).put "k2" (record (post "k2"))
    let before : Device := {Device.launched with
      currentUser := some ⟨"u",some "U"⟩
      observers := [⟨"u",[]⟩]}
    let w : World Unit := ⟨{Server.empty with posts := fun _ => content},
      fun _ => before.shown [post "k2",post "k1"]⟩
    let events : List (Event Unit) := [((),.delete 1),((),.deliver 0),((),.delete 0),((),.deliver 0)]
    (runs .letters w events).isSome = true ∧
      Runs.Always (step .letters) w events (fun _ w => (w.device ()).Mirrors (w.server.posts "u")) ∧
      Runs.Throughout (step .letters) w events fun _ w event next => DeletesRecord "u" () w event next := by
  intro post content before w events
  refine ⟨by decide,deletion_commutes ⟨"u",some "U"⟩ ?_ ?_ (?_ : fetchData before content = _) rfl rfl ?_ ?_⟩
  · decide
  · intro row member
    have rows : (w.server.posts "u").rows = [("k1",record (post "k1")),("k2",record (post "k2"))] := by decide
    rw [rows] at member
    rcases List.mem_cons.mp member with rfl | last
    · exact ⟨post "k1",rfl,rfl⟩
    · obtain rfl := List.mem_singleton.mp last
      exact ⟨post "k2",rfl,rfl⟩
  · exact fetchData_shown before content [post "k1",post "k2"] (by decide) (by decide)
  · intro o member snapshot told
    obtain rfl := List.mem_singleton.mp member
    exact absurd told List.not_mem_nil
  · exact Runs.guarded_of_checks (by decide)

end Journey
