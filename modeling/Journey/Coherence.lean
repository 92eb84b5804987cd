import Journey.World

namespace Journey

variable {D : Type} [DecidableEq D] {auto : AutoId} {w next : World D} {d x : D}

-- The post was saved under the account `uid`; the photo that a device may hold
-- with it is not part of the record.
def Belongs (log : List Write) (uid : String) (post : Post) : Prop :=
  ∃ saved, Write.saved uid saved ∈ log ∧ saved.described = post.described

def Lists (log : List Write) (uid : String) (snapshot : Snapshot) (kept : List Post) : Prop :=
  snapshot.rows = kept.map Post.entry ∧ ∀ post ∈ kept, Write.saved uid post ∈ log

structure Upload.Placed (log : List Write) (upload : Upload) : Prop where
  post : ∀ post, upload.closure = .post post →
    ∃ uid key, post.id = some key ∧ upload.path = [uid,"posts",key] ∧ Write.saved uid post ∈ log
  profile : upload.closure = .profilePhoto → ∃ uid, upload.path = [uid,"profilePhoto.jpg"]

structure Device.Held (log : List Write) (d : Device) : Prop where
  posts : ∀ post ∈ d.posts, ∃ uid, Belongs log uid post
  uploads : ∀ upload ∈ d.uploads, upload.Placed log
  urls : ∀ request ∈ d.urls, ∃ uid, Belongs log uid request.post

structure Observer.Fed (server : Server) (o : Observer) : Prop where
  ends : Feed.Ends o.queue (server.posts o.uid)
  lists : ∀ snapshot ∈ o.queue, ∃ kept, Lists server.log o.uid snapshot kept

structure Coherent (auto : AutoId) (w : World D) : Prop where
  sound : w.server.Sound auto
  held : ∀ x, (w.device x).Held w.server.log
  fed : ∀ x, ∀ o ∈ (w.device x).observers, o.Fed w.server

theorem Belongs.of_saved {log : List Write} {uid : String} {post : Post} (saved : Write.saved uid post ∈ log) :
    Belongs log uid post := ⟨post,saved,rfl⟩

theorem Belongs.grows {log later : List Write} {uid : String} {post : Post} (grows : log ⊆ later)
    (belongs : Belongs log uid post) : Belongs later uid post := by
  obtain ⟨saved,member,same⟩ := belongs
  exact ⟨saved,grows member,same⟩

theorem Belongs.drawn {server : Server} (sound : server.Sound auto) {uid : String} {post : Post}
    (belongs : Belongs server.log uid post) : ∃ n < server.drawn, post.id = some (auto.key n) := by
  obtain ⟨saved,member,same⟩ := belongs
  obtain ⟨n,below,isKey⟩ := sound.drawn_id member
  exact ⟨n,below,(congrArg Prod.fst same).symm.trans isKey⟩

theorem Belongs.unique {server : Server} (sound : server.Sound auto) {uid owner : String} {post other : Post}
    (first : Belongs server.log uid post) (second : Belongs server.log owner other) (same : post.id = other.id) :
    uid = owner := by
  obtain ⟨saved,member,saved_same⟩ := first
  obtain ⟨saved',member',saved_same'⟩ := second
  have ids : saved.id = saved'.id :=
    (congrArg Prod.fst saved_same).trans (same.trans (congrArg Prod.fst saved_same').symm)
  exact (sound.save_unique member member' ids).1

theorem Lists.grows {log later : List Write} {uid : String} {snapshot : Snapshot} {kept : List Post}
    (grows : log ⊆ later) (lists : Lists log uid snapshot kept) : Lists later uid snapshot kept :=
  ⟨lists.1,fun post member => grows (lists.2 post member)⟩

theorem Server.Sound.lists {server : Server} (sound : server.Sound auto) (uid : String) :
    Lists server.log uid (server.posts uid) (journal uid server.log) :=
  ⟨sound.rows uid,fun _ member => journal_saved member⟩

theorem Lists.nonempty {log : List Write} {uid : String} {snapshot : Snapshot} {kept : List Post}
    (lists : Lists log uid snapshot kept) : snapshot.rows ≠ [] ↔ kept ≠ [] := by
  rw [lists.1]
  exact not_congr List.map_eq_nil_iff

theorem Lists.reads {server : Server} (sound : server.Sound auto) {uid : String} {snapshot : Snapshot}
    {kept : List Post} (lists : Lists server.log uid snapshot kept) :
    snapshot.rows.mapM (fun row => readPost row.2) = some (kept.map Post.fetched) := by
  rw [lists.1]
  refine mapM_entry fun post member => ?_
  obtain ⟨n,_,isKey⟩ := sound.drawn_id (lists.2 post member)
  simp [isKey]

theorem Lists.fetch {server : Server} (sound : server.Sound auto) {uid : String} {snapshot : Snapshot}
    {kept : List Post} (lists : Lists server.log uid snapshot kept) (nonempty : snapshot.rows ≠ []) (d : Device) :
    fetchData d snapshot = some (d.shown (kept.map Post.fetched).reverse) :=
  fetchData_shown d snapshot _ nonempty (lists.reads sound)

theorem Lists.keys {server : Server} (sound : server.Sound auto) {uid : String} {snapshot : Snapshot}
    {kept : List Post} (lists : Lists server.log uid snapshot kept) :
    kept.map Post.id = snapshot.keys.map some := by
  rw [KeyedStore.keys,lists.1,List.map_map,List.map_map]
  refine List.map_congr_left fun post member => ?_
  obtain ⟨n,_,isKey⟩ := sound.drawn_id (lists.2 post member)
  simp [Post.entry,isKey]

def Device.ListsRecords (d : Device) (snapshot : Snapshot) : Prop :=
  d.posts.reverse.map (fun post => (post.id,record post)) = snapshot.rows.map fun row => (some row.1,row.2)

theorem listsRecords_empty {d : Device} {snapshot : Snapshot} (empty : snapshot.rows = []) :
    d.ListsRecords snapshot ↔ d.posts = [] := by simp [Device.ListsRecords,empty]

theorem Server.Sound.listsRecords {server : Server} (sound : server.Sound auto) {uid : String} {d : Device}
    (shows : d.posts = ((journal uid server.log).map Post.fetched).reverse) : d.ListsRecords (server.posts uid) := by
  rw [Device.ListsRecords,shows,List.reverse_reverse,List.map_map,sound.rows,List.map_map]
  refine List.map_congr_left fun post member => ?_
  obtain ⟨n,_,isKey⟩ := sound.kept_id member
  simp [Post.entry,Post.fetched,record,isKey]

theorem Upload.Placed.grows {log later : List Write} {upload : Upload} (grows : log ⊆ later)
    (placed : upload.Placed log) : upload.Placed later where
  post post closure := by
    obtain ⟨uid,key,named,path,saved⟩ := placed.post post closure
    exact ⟨uid,key,named,path,grows saved⟩
  profile := placed.profile

theorem Device.Held.grows {log later : List Write} {d : Device} (grows : log ⊆ later) (held : d.Held log) :
    d.Held later where
  posts post member := (held.posts post member).imp fun _ => Belongs.grows grows
  uploads upload member := (held.uploads upload member).grows grows
  urls request member := (held.urls request member).imp fun _ => Belongs.grows grows

theorem Device.Held.of_local {log : List Write} {d other : Device} (same : other.local = d.local) (held : d.Held log) :
    other.Held log where
  posts := by simpa using (congrArg Device.posts same) ▸ held.posts
  uploads := by simpa using (congrArg Device.uploads same) ▸ held.uploads
  urls := by simpa using (congrArg Device.urls same) ▸ held.urls

theorem apply_grows (server : Server) (request : Request) : server.log ⊆ (server.apply request).log := by
  rw [apply_log]
  exact List.subset_append_left _ _

theorem served_log (server : Server) (request : Option Request) : server.log ⊆ (server.served request).log := by
  cases request with
  | none => exact List.Subset.refl _
  | some request => exact apply_grows server request

theorem Reacts.drawn {server : Server} {dev : Device} {action : Action} {reaction : Reaction}
    (rule : Reacts auto server dev action reaction) (sound : server.Sound auto) (held : dev.Held server.log) :
    ∀ request, reaction.request = some request → request.Drawn auto server := by
  intro request issued
  cases rule with
  | save | saveUnencoded => cases issued; exact ⟨rfl,rfl⟩
  | delete inside signed found named | deleteRaise inside signed found named =>
      cases issued
      obtain ⟨uid,belongs⟩ := held.posts _ (List.mem_of_getElem? found)
      obtain ⟨n,below,isKey⟩ := belongs.drawn sound
      exact ⟨n,below,Option.some.inj (named.symm.trans isKey)⟩
  | _ => cases issued <;> trivial

theorem Reacts.sound {server : Server} {dev : Device} {action : Action} {reaction : Reaction}
    (rule : Reacts auto server dev action reaction) (sound : server.Sound auto) (held : dev.Held server.log) :
    (server.served reaction.request).Sound auto := by
  cases issued : reaction.request with
  | none => exact sound
  | some request => exact sound.apply (rule.drawn sound held request issued)

theorem Device.Held.trapped {log : List Write} {dev : Device} (held : dev.Held log) : (dev.after none).Held log :=
  ⟨held.posts,held.uploads,held.urls⟩

theorem Reacts.held {server : Server} {dev : Device} {action : Action} {reaction : Reaction}
    (rule : Reacts auto server dev action reaction) (sound : server.Sound auto) (held : dev.Held server.log)
    (fed : ∀ o ∈ dev.observers, o.Fed server) :
    (dev.after reaction.device).Held (server.served reaction.request).log := by
  have later := held.grows (served_log server reaction.request)
  cases rule with
  | signIn | register | signOut | profileChanged | appearUnnamed | refused | deliverEmpty | cellEmpty | cellImage =>
      exact ⟨later.posts,later.uploads,later.urls⟩
  | saveTrap | saveUnencoded | deliverTrap | deleteRaise | deleteTrap | cellTrap | urlTrap | profilePhotoTrap =>
      exact later.trapped
  | appearOut => exact ⟨by simp [Device.after,Device.cleared],later.uploads,later.urls⟩
  | appearNamed =>
      exact ⟨by simpa [Device.after] using later.posts,by simpa [Device.after] using later.uploads,
        by simpa [Device.after] using later.urls⟩
  | @save form user image data text photo signed encoded =>
      refine ⟨later.posts,?_,later.urls⟩
      intro upload member
      rcases List.mem_append.mp member with old | new
      · exact later.uploads upload old
      · rw [List.mem_singleton.mp new]
        refine ⟨fun post closure => ?_,fun closure => by cases closure⟩
        cases closure
        exact ⟨user.uid,auto.key server.drawn,rfl,rfl,by simp [Server.apply]⟩
  | @uploaded index path data post pending =>
      obtain ⟨uid,_,_,_,saved⟩ := (later.uploads _ (List.mem_of_getElem? pending)).post post rfl
      refine ⟨?_,fun upload member => later.uploads upload (List.mem_of_mem_eraseIdx member),later.urls⟩
      intro p member
      rcases List.mem_append.mp member with old | new
      · exact later.posts p old
      · rw [List.mem_singleton.mp new]
        exact ⟨uid,.of_saved saved⟩
  | profileUploaded | uploadFailed =>
      exact ⟨later.posts,fun upload member => later.uploads upload (List.mem_of_mem_eraseIdx member),later.urls⟩
  | @deliver index uid snapshot rest posts waiting nonempty reads =>
      obtain ⟨kept,lists⟩ := (fed _ (List.mem_of_getElem? waiting)).lists snapshot List.mem_cons_self
      refine ⟨?_,later.uploads,later.urls⟩
      intro p member
      obtain rfl := Option.some.inj (reads.symm.trans (lists.reads sound))
      obtain ⟨post,inside,rfl⟩ := List.mem_map.mp (List.mem_reverse.mp member)
      exact ⟨uid,post,lists.2 post inside,rfl⟩
  | delete =>
      exact ⟨fun p member => later.posts p (List.mem_of_mem_eraseIdx (by simpa [Device.after] using member)),
        by simpa [Device.after] using later.uploads,by simpa [Device.after] using later.urls⟩
  | @cellRequest row cell post user id inside found photo signed named =>
      refine ⟨later.posts,later.uploads,?_⟩
      intro request member
      rcases List.mem_append.mp member with old | new
      · exact later.urls request old
      · rw [List.mem_singleton.mp new]
        exact later.posts post (List.mem_of_getElem? found)
  | urlFailed =>
      exact ⟨later.posts,later.uploads,fun request member => later.urls request (List.mem_of_mem_eraseIdx member)⟩
  | @urlFound index request pending inside =>
      refine ⟨?_,later.uploads,fun request member => later.urls request (List.mem_of_mem_eraseIdx member)⟩
      intro p member
      rcases List.mem_or_eq_of_mem_set member with old | rfl
      · exact later.posts p old
      · exact later.urls request (List.mem_of_getElem? pending)
  | @profilePhoto image user data encoded signed =>
      refine ⟨later.posts,?_,later.urls⟩
      intro upload member
      rcases List.mem_append.mp member with old | new
      · exact later.uploads upload old
      · rw [List.mem_singleton.mp new]
        exact ⟨fun post closure => (by cases closure),fun _ => ⟨user.uid,rfl⟩⟩

theorem Reacts.observers {server : Server} {dev : Device} {action : Action} {reaction : Reaction}
    (rule : Reacts auto server dev action reaction) : (dev.after reaction.device).observers = dev.observers ∨
      ∃ index uid snapshot rest, action = .deliver index ∧ dev.observers[index]? = some ⟨uid,snapshot :: rest⟩ ∧
        (dev.after reaction.device).observers = dev.observers.set index ⟨uid,rest⟩ := by
  cases rule with
  | deliverEmpty waiting | deliver waiting => exact .inr ⟨_,_,_,_,rfl,waiting,rfl⟩
  | appearNamed | delete => exact .inl (by simp [Device.after])
  | _ => exact .inl rfl

theorem Reacts.fed {server : Server} {dev : Device} {action : Action} {reaction : Reaction}
    (rule : Reacts auto server dev action reaction) (fed : ∀ o ∈ dev.observers, o.Fed server) :
    ∀ o ∈ (dev.after reaction.device).observers, o.Fed server := by
  rcases rule.observers with same | ⟨index,uid,snapshot,rest,_,waiting,same⟩
  · exact same ▸ fed
  · rw [same]
    refine told_observers fed waiting fun before => ?_
    exact ⟨Feed.ends_pop before.ends,fun s inside => before.lists s (List.mem_cons_of_mem _ inside)⟩

theorem Observer.Fed.written {server : Server} {o : Observer} {uid : String} {request : Request} (fed : o.Fed server)
    (sound : (server.apply request).Sound auto)
    (others : ∀ owner, owner ≠ uid → (server.apply request).posts owner = server.posts owner) :
    Observer.Fed (server.apply request)
      (if o.uid = uid then {o with queue := o.queue ++ [(server.apply request).posts uid]} else o) := by
  have earlier : ∀ snapshot ∈ o.queue, ∃ kept, Lists (server.apply request).log o.uid snapshot kept :=
    fun snapshot member => (fed.lists snapshot member).imp fun _ => Lists.grows (apply_grows server request)
  by_cases same : o.uid = uid
  · rw [if_pos same]
    refine ⟨by simpa [same] using Feed.ends_push _ _,?_⟩
    intro snapshot member
    rcases List.mem_append.mp member with old | new
    · exact earlier snapshot old
    · rw [List.mem_singleton.mp new]
      refine ⟨journal uid (server.apply request).log,?_⟩
      change Lists _ o.uid _ _
      rw [same]
      exact sound.lists uid
  · rw [if_neg same]
    exact ⟨(others _ same) ▸ fed.ends,earlier⟩

theorem serve_fed {request : Request} (sound : (w.server.apply request).Sound auto)
    (fed : ∀ x, ∀ o ∈ (w.device x).observers, o.Fed w.server) (d x : D) :
    ∀ o ∈ ((w.serve d request).device x).observers, o.Fed (w.server.apply request) := by
  intro o member
  cases request with
  | setValue uid key post =>
      obtain ⟨old,inside,rfl⟩ := List.mem_map.mp member
      exact (fed x old inside).written sound fun owner other => Function.update_of_ne other _ _
  | removeValue uid key =>
      obtain ⟨old,inside,rfl⟩ := List.mem_map.mp member
      exact (fed x old inside).written sound fun owner other => Function.update_of_ne other _ _
  | putObject path data =>
      have before := fed x o member
      exact ⟨before.ends,fun s inside => (before.lists s inside).imp fun _ => Lists.grows (apply_grows w.server _)⟩
  | observe uid =>
      by_cases same : x = d
      · subst same
        simp only [World.serve,Function.update_self,Device.attach,List.mem_append,List.mem_singleton] at member
        rcases member with old | rfl
        · exact fed x o old
        · refine ⟨Feed.ends_push [] _,?_⟩
          intro snapshot inside
          rw [List.mem_singleton.mp inside]
          exact ⟨_,sound.lists uid⟩
      · simp only [World.serve,Function.update_of_ne same] at member
        exact fed x o member

theorem settle_fed {outcome : Option Device} (fed : ∀ x, ∀ o ∈ (w.device x).observers, o.Fed w.server)
    (own : ∀ o ∈ ((w.device d).after outcome).observers, o.Fed w.server) (x : D) :
    ∀ o ∈ ((w.settle d outcome).device x).observers, o.Fed (w.settle d outcome).server := by
  by_cases same : x = d
  · subst same
    simpa [World.settle] using own
  · simpa [World.settle,Function.update_of_ne same] using fed x

theorem Coherent.step {event : Event D} (coherent : Coherent auto w) (taken : step auto w event = some next) :
    Coherent auto next := by
  obtain ⟨d,action⟩ := event
  obtain ⟨_,reaction,rule,rfl⟩ := step_iff.mp taken
  refine ⟨?_,?_,?_⟩
  · rw [commit_server]
    exact rule.sound coherent.sound (coherent.held d)
  · intro x
    rw [commit_server]
    by_cases same : x = d
    · subst same
      exact (rule.held coherent.sound (coherent.held x) (coherent.fed x)).of_local (commit_self w x reaction)
    · exact ((coherent.held x).grows (served_log _ _)).of_local (commit_other w reaction same)
  · intro x
    rw [commit_server]
    have settled := settle_fed coherent.fed (rule.fed (coherent.fed d))
    unfold World.commit
    cases issued : reaction.request with
    | none => exact settled x
    | some request =>
        have sound := rule.sound coherent.sound (coherent.held d)
        rw [issued] at sound
        exact serve_fed (w := w.settle d reaction.device) sound settled d x

omit [DecidableEq D] in
theorem Coherent.start (auto : AutoId) : Coherent auto (World.start : World D) where
  sound := .empty auto
  held x := ⟨by simp [World.start,Device.launched],by simp [World.start,Device.launched],
    by simp [World.start,Device.launched]⟩
  fed x := by simp [World.start,Device.launched]

theorem Coherent.runs {events : List (Event D)} (coherent : Coherent auto w) (ran : runs auto w events = some next) :
    Coherent auto next :=
  Runs.run_invariant (I := Coherent auto) coherent (fun _ _ _ good taken => good.step taken) ran

end Journey
