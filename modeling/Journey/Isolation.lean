import Journey.Coherence

namespace Journey

variable {D : Type} [DecidableEq D] {auto : AutoId} {w next : World D} {device : D}

def appearedAfter (device : D) (appeared : Bool) (event : Event D) : Bool :=
  if event.1 = device then
    match event.2 with
    | .signIn _ | .register _ | .signOut => false
    | .viewDidAppear => true
    | _ => appeared
  else appeared

def Appeared (device : D) (events : List (Event D)) : Bool := events.foldl (appearedAfter device) false

def Device.Owns (log : List Write) (d : Device) (post : Post) : Prop :=
  ∃ user, d.currentUser = some user ∧ Belongs log user.uid post

structure Device.Isolated (log : List Write) (d : Device) : Prop where
  own : ∀ user, d.currentUser = some user → ∀ post ∈ d.posts, Belongs log user.uid post
  empty : d.currentUser = none → d.posts = []

theorem isolated_iff {log : List Write} {d : Device} : d.Isolated log ↔ ∀ post ∈ d.posts, d.Owns log post := by
  constructor
  · intro isolated post member
    cases signed : d.currentUser with
    | none => simp [isolated.empty signed] at member
    | some user => exact ⟨user,signed,isolated.own user signed post member⟩
  · intro owns
    refine ⟨fun user signed post member => ?_,fun nobody => ?_⟩
    · obtain ⟨other,same,belongs⟩ := owns post member
      cases signed.symm.trans same
      exact belongs
    · refine List.eq_nil_iff_forall_not_mem.mpr fun post member => ?_
      obtain ⟨user,signed,_⟩ := owns post member
      cases nobody.symm.trans signed

-- The callback, or the appearance, concerns the account that is signed in: its
-- upload, its snapshot, its photo, or a list that already is its own.
def Device.Concerns (server : Server) (d : Device) : Action → Prop
  | .uploadDone index true => ∀ upload post, d.uploads[index]? = some upload → upload.closure = .post post →
      d.Owns server.log post
  | .deliver index => ∀ uid snapshot rest, d.observers[index]? = some ⟨uid,snapshot :: rest⟩ → snapshot.rows ≠ [] →
      d.uid = some uid
  | .urlDone index true => ∀ request, d.urls[index]? = some request → request.item < d.posts.length →
      d.Owns server.log request.post
  | .viewDidAppear => d.currentUser = none ∨ ∀ post ∈ d.posts, d.Owns server.log post
  | _ => True

theorem owns_local {log : List Write} {d other : Device} (same : other.currentUser = d.currentUser) (post : Post) :
    other.Owns log post ↔ d.Owns log post := by rw [Device.Owns,Device.Owns,same]

theorem owns_grows {log later : List Write} {d : Device} {post : Post} (grows : log ⊆ later) (owns : d.Owns log post) :
    d.Owns later post := owns.imp fun _ both => ⟨both.1,both.2.grows grows⟩

theorem belongs_putObject {server : Server} {path : List String} {data : List UInt8} {uid : String} {post : Post} :
    Belongs (server.apply (.putObject path data)).log uid post ↔ Belongs server.log uid post := by
  simp [Belongs,Server.apply]

theorem shown_owned {server : Server} (sound : server.Sound auto) {d : Device} {uid : String} {snapshot : Snapshot}
    {kept : List Post} (lists : Lists server.log uid snapshot kept) (nonempty : snapshot.rows ≠ []) :
    (∀ post ∈ (kept.map Post.fetched).reverse, d.Owns server.log post) ↔ d.uid = some uid := by
  have belongs : ∀ post ∈ (kept.map Post.fetched).reverse, Belongs server.log uid post := by
    intro post member
    obtain ⟨saved,inside,rfl⟩ := List.mem_map.mp (List.mem_reverse.mp member)
    exact ⟨saved,lists.2 saved inside,rfl⟩
  constructor
  · intro owns
    obtain ⟨saved,inside⟩ := List.exists_mem_of_ne_nil kept (lists.nonempty.mp nonempty)
    have member : saved.fetched ∈ (kept.map Post.fetched).reverse :=
      List.mem_reverse.mpr (List.mem_map_of_mem inside)
    obtain ⟨user,signed,owned⟩ := owns _ member
    rw [Device.uid,signed,Option.map_some,(belongs _ member).unique sound owned rfl]
  · intro session post member
    obtain ⟨user,signed,same⟩ := Option.map_eq_some_iff.mp session
    exact ⟨user,signed,same ▸ belongs post member⟩

theorem Reacts.isolated {server : Server} {dev : Device} {action : Action} {reaction : Reaction}
    (rule : Reacts auto server dev action reaction) (sound : server.Sound auto)
    (fed : ∀ o ∈ dev.observers, o.Fed server) (keeps : action.KeepsSession)
    (was : action ≠ .viewDidAppear → ∀ post ∈ dev.posts, dev.Owns server.log post) :
    (∀ post ∈ (dev.after reaction.device).posts, (dev.after reaction.device).Owns (server.served reaction.request).log
      post) ↔ dev.Concerns server action := by
  cases rule with
  | signIn | register | signOut => cases keeps
  | @profileChanged user name signed =>
      refine iff_of_true (fun post member => ?_) trivial
      obtain ⟨owner,same,belongs⟩ := was (by simp) post member
      cases signed.symm.trans same
      exact ⟨_,rfl,belongs⟩
  | appearOut nobody => exact iff_of_true (by simp [Device.after,Device.cleared]) (.inl nobody)
  | appearUnnamed signed => simp [Device.after,Device.Concerns,Device.Owns,signed]
  | appearNamed signed => simp [Device.after,Device.Concerns,Device.Owns,signed,Server.apply]
  | @uploaded index path data post pending =>
      have owned := was (by simp)
      constructor
      · intro owns upload other found closure
        cases pending.symm.trans found
        cases closure
        obtain ⟨user,signed,belongs⟩ := owns post (by simp [Device.after])
        exact ⟨user,signed,belongs_putObject.mp belongs⟩
      · intro concerns p member
        have still : dev.Owns server.log p := by
          rcases List.mem_append.mp member with old | new
          · exact owned p old
          · exact concerns _ p pending (by rw [List.mem_singleton.mp new])
        exact owns_grows (served_log server (some _)) still
  | @profileUploaded index path data pending =>
      refine iff_of_true (fun post member => owns_grows (served_log server (some _)) (was (by simp) post member)) ?_
      intro upload post found closure
      cases pending.symm.trans found
      cases closure
  | @deliverEmpty index uid snapshot rest waiting empty =>
      refine iff_of_true (was (by simp)) ?_
      intro other first others found nonempty
      cases waiting.symm.trans found
      exact absurd empty nonempty
  | @deliver index uid snapshot rest posts waiting nonempty reads =>
      obtain ⟨kept,lists⟩ := (fed _ (List.mem_of_getElem? waiting)).lists snapshot List.mem_cons_self
      obtain rfl := Option.some.inj (reads.symm.trans (lists.reads sound))
      refine (shown_owned (d := dev) sound lists nonempty).trans ?_
      constructor
      · intro session other first others found _
        cases waiting.symm.trans found
        exact session
      · exact fun concerns => concerns uid snapshot rest waiting nonempty
  | @deliverTrap index uid snapshot rest waiting mistyped =>
      obtain ⟨kept,lists⟩ := (fed _ (List.mem_of_getElem? waiting)).lists snapshot List.mem_cons_self
      exact absurd (mistyped.symm.trans (lists.reads sound)) (by simp)
  | @delete row =>
      refine iff_of_true (fun post member => ?_) trivial
      have inside : post ∈ dev.posts := List.mem_of_mem_eraseIdx (by simpa [Device.after] using member)
      refine (owns_local (without_currentUser dev row) post).mpr ?_
      exact owns_grows (served_log server (some _)) (was (by simp) post inside)
  | @urlFound index request pending inside =>
      constructor
      · intro owns other waiting _
        cases pending.symm.trans waiting
        exact owns request.post (List.mem_set inside request.post)
      · intro concerns post member
        rcases List.mem_or_eq_of_mem_set member with old | rfl
        · exact was (by simp) post old
        · exact concerns request pending inside
  | @urlTrap index request pending past =>
      refine iff_of_true (was (by simp)) ?_
      intro other waiting inside
      cases pending.symm.trans waiting
      exact absurd inside (Nat.not_lt.mpr past)
  | save | saveUnencoded | deleteRaise =>
      exact iff_of_true (fun post member => owns_grows (served_log server (some _)) (was (by simp) post member)) trivial
  | _ => exact iff_of_true (was (by simp)) trivial

def Isolates (device : D) (past : List (Event D)) (w : World D) : Prop :=
  Appeared device past = true → (w.device device).Isolated w.server.log

theorem appeared_snoc (device : D) (past : List (Event D)) (event : Event D) :
    Appeared device (past ++ [event]) = appearedAfter device (Appeared device past) event := by
  simp [Appeared]

theorem step_isolates {past : List (Event D)} {event : Event D} (coherent : Coherent auto w)
    (isolates : Isolates device past w) (taken : step auto w event = some next) :
    Isolates device (past ++ [event]) next ↔ (event.1 = device → Appeared device (past ++ [event]) = true →
      (w.device device).Concerns w.server event.2) := by
  obtain ⟨d,action⟩ := event
  obtain ⟨_,reaction,rule,rfl⟩ := step_iff.mp taken
  simp only [Isolates,isolated_iff,commit_server] at isolates ⊢
  by_cases same : d = device
  · subst same
    simp only [forall_const]
    refine imp_congr_right fun appeared => ?_
    have keeps : action.KeepsSession := by
      cases action with
      | signIn | register | signOut => simp [appeared_snoc,appearedAfter] at appeared
      | _ => trivial
    have before (other : action ≠ .viewDidAppear) : Appeared d past = true := by
      rw [appeared_snoc,appearedAfter,if_pos rfl] at appeared
      split at appeared <;> first | exact appeared | contradiction
    have one := rule.isolated coherent.sound (coherent.fed d) keeps fun other => isolates (before other)
    rw [← one,commit_posts]
    exact forall_congr' fun post => imp_congr_right fun _ => owns_local (commit_currentUser w d reaction) post
  · have elsewhere : Appeared device (past ++ [(d,action)]) = Appeared device past := by
      simp [appeared_snoc,appearedAfter,same]
    refine iff_of_true (fun appeared post member => ?_) fun equal => absurd equal same
    have frame := commit_other w reaction (Ne.symm same)
    have posts : ((w.commit d reaction).device device).posts = (w.device device).posts := by
      simpa only [local_posts] using congrArg Device.posts frame
    have user : ((w.commit d reaction).device device).currentUser = (w.device device).currentUser := by
      simpa only [local_currentUser] using congrArg Device.currentUser frame
    rw [posts] at member
    rw [owns_local user]
    exact owns_grows (served_log _ _) (isolates (elsewhere ▸ appeared) post member)

theorem isolation_exact {events : List (Event D)} (device : D) (ran : runs auto World.start events = some w) :
    Runs.Always (step auto) World.start events (Isolates device) ↔
      Runs.Guarded (step auto) World.start events fun past before event => event.1 = device →
        Appeared device (past ++ [event]) = true → (before.device device).Concerns before.server event.2 := by
  refine Runs.always_iff_guarded (fun appeared => by simp [Appeared] at appeared) ?_ ran
  intro past before event after reached isolates taken
  exact step_isolates ((Coherent.start auto).runs reached) isolates taken

theorem isolation_twoAccounts :
    let events : List (Event Unit) := [((),.signIn ⟨"u",some "U"⟩),((),.viewDidAppear),
      ((),.saveNewPost ⟨"one","Montréal","May 1",some ⟨some [255]⟩⟩),((),.deliver 0),((),.deliver 0),((),.signOut),
      ((),.viewDidAppear),((),.signIn ⟨"v",some "V"⟩),((),.viewDidAppear),((),.deliver 1)]
    Runs.Always (step .letters) World.start events (Isolates ()) ↔
      Runs.Guarded (step .letters) World.start events fun past before event => event.1 = () →
        Appeared () (past ++ [event]) = true → (before.device ()).Concerns before.server event.2 := by
  intro events
  obtain ⟨w,ran⟩ := Option.isSome_iff_exists.mp
    (show (runs .letters (World.start : World Unit) events).isSome = true by decide)
  exact isolation_exact () ran

-- An upload that ends after the log-out, and after the list has been cleared for
-- it, puts its post back: somebody's post is listed with nobody signed in.
theorem isolation_afterSignOut_fails :
    ¬ Runs.Always (step .letters) World.start ([((),.signIn ⟨"u",some "U"⟩),((),.viewDidAppear),
      ((),.saveNewPost ⟨"one","Montréal","May 1",some ⟨some [255]⟩⟩),((),.signOut),((),.viewDidAppear),
      ((),.uploadDone 0 true)] : List (Event Unit)) (Isolates ()) := by
  intro always
  obtain ⟨w,reached,nobody,listed⟩ : ∃ w, runs .letters (World.start : World Unit) [((),.signIn ⟨"u",some "U"⟩),
      ((),.viewDidAppear),((),.saveNewPost ⟨"one","Montréal","May 1",some ⟨some [255]⟩⟩),((),.signOut),
      ((),.viewDidAppear),((),.uploadDone 0 true)] = some w ∧ (w.device ()).currentUser = none ∧
      (w.device ()).posts.length = 1 := Runs.run_reaches (by decide)
  have empty := (always _ [] w rfl reached (by decide)).empty nobody
  simp [empty] at listed

end Journey
