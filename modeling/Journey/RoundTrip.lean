import Journey.History

namespace Journey

variable {D : Type} [DecidableEq D] {auto : AutoId} {w : World D}

-- What a delivery makes of the content of posts/uid after a run: the posts that
-- the run saved there and did not delete, as they were saved but for the photo.
structure ShowsSurvivors (auto : AutoId) (events : List (Event D)) (w : World D) (uid : String) (d : Device) :
    Prop where
  surviving : ∀ post, post ∈ d.posts ↔ ∃ saved, post = {saved with image := none} ∧
    Runs.Occurs (step auto) World.start events (Saves auto uid saved) ∧
    ∀ key, saved.id = some key → ¬ Runs.Occurs (step auto) World.start events (Deletes uid key)
  newestFirst : d.posts.Pairwise fun newer older => ∃ late early,
    newer = {late with image := none} ∧ older = {early with image := none} ∧
    Runs.Before (step auto) World.start events (Saves auto uid early) (Saves auto uid late)
  once : d.ids.Nodup
  keyed : d.ListsRecords (w.server.posts uid)
  table : d.table = d.posts
  label : d.postCountLabel = toString d.posts.length ++ " Posts"

theorem mem_fetched {kept : List Post} {post : Post} :
    post ∈ (kept.map Post.fetched).reverse ↔ ∃ saved ∈ kept, post = {saved with image := none} := by
  simp only [List.mem_reverse,List.mem_map,Post.fetched,eq_comm]

theorem Server.Sound.journal_ids {server : Server} (sound : server.Sound auto) (uid : String) :
    ((journal uid server.log).map Post.id).Nodup := by
  have sub := (journal_sublist uid server.log).map fun save => save.2.id
  rw [List.map_map] at sub
  exact sound.ids_nodup.sublist sub

theorem fetchData_roundTrip {events : List (Event D)} (ran : runs auto World.start events = some w) (uid : String)
    (remains : (w.server.posts uid).rows ≠ []) (d : Device) :
    ∃ next, fetchData d (w.server.posts uid) = some next ∧ ShowsSurvivors auto events w uid next := by
  have sound := ((Coherent.start auto).runs ran).sound
  refine ⟨_,(sound.lists uid).fetch sound remains d,?_,?_,?_,?_,rfl,rfl⟩
  · intro post
    rw [Device.shown,mem_fetched]
    constructor
    · intro both
      obtain ⟨saved,kept,same⟩ := both
      obtain ⟨member,never⟩ := (sound.kept uid saved).mp kept
      exact ⟨saved,same,(log_exact ran).mp member,fun key isKey gone => never key isKey ((log_exact ran).mpr gone)⟩
    · intro both
      obtain ⟨saved,same,happened,never⟩ := both
      refine ⟨saved,(sound.kept uid saved).mpr ⟨(log_exact ran).mpr happened,?_⟩,same⟩
      exact fun key isKey gone => never key isKey ((log_exact ran).mp gone)
  · have ordered := List.pairwise_map.mp ((saves_ordered ran).sublist (journal_sublist uid w.server.log))
    rw [Device.shown,List.pairwise_reverse,List.pairwise_map]
    exact ordered.imp fun {early late} before => ⟨late,early,rfl,rfl,before⟩
  · have ids : ((journal uid w.server.log).map Post.fetched).map Post.id = (journal uid w.server.log).map Post.id := by
      rw [List.map_map]
      rfl
    rw [Device.ids,Device.shown,List.map_reverse,List.nodup_reverse,ids]
    exact sound.journal_ids uid
  · exact sound.listsRecords rfl

theorem fetchData_roundTrip_afterDelete :
    let form (text : String) : Form := ⟨text,"Montréal","May 1",some ⟨some [255]⟩⟩
    let events : List (Event Unit) := [((),.signIn ⟨"u",some "U"⟩),((),.saveNewPost (form "one")),
      ((),.saveNewPost (form "two")),((),.viewDidAppear),((),.deliver 0),((),.delete 0)]
    ∃ (w : World Unit) (next : Device), runs .letters .start events = some w ∧ w.server.posts "u" ≠ .empty ∧
      fetchData .launched (w.server.posts "u") = some next ∧ ShowsSurvivors .letters events w "u" next := by
  intro form events
  obtain ⟨w,ran,rows⟩ := Option.map_eq_some_iff.mp
    (show (runs .letters .start events).map (fun w => (w.server.posts "u").rows.length) = some 1 by decide)
  have remains : (w.server.posts "u").rows ≠ [] := fun empty => by simp [empty] at rows
  obtain ⟨next,fetched,shows⟩ := fetchData_roundTrip ran "u" remains .launched
  exact ⟨w,next,ran,fun empty => remains (congrArg KeyedStore.rows empty),fetched,shows⟩

end Journey
