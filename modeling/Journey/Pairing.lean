import Journey.History

namespace Journey

variable {D : Type} [DecidableEq D] {auto : AutoId} {w next : World D}

def World.HasRecord (w : World D) (uid key : String) : Prop := key ∈ (w.server.posts uid).keys

def World.HasPhoto (w : World D) (uid key : String) : Prop := (w.server.objects [uid,"posts",key]).isSome = true

def WasSaved (auto : AutoId) (events : List (Event D)) (uid key : String) : Prop :=
  ∃ post, post.id = some key ∧ Runs.Occurs (step auto) World.start events (Saves auto uid post)

def WasDeleted (auto : AutoId) (events : List (Event D)) (uid key : String) : Prop :=
  Runs.Occurs (step auto) World.start events (Deletes uid key)

def WasUploaded (auto : AutoId) (events : List (Event D)) (uid key : String) : Prop :=
  Runs.Occurs (step auto) World.start events (Stores [uid,"posts",key])

theorem hasRecord_exact {events : List (Event D)} (ran : runs auto World.start events = some w) {uid key : String} :
    w.HasRecord uid key ↔ WasSaved auto events uid key ∧ ¬ WasDeleted auto events uid key := by
  have sound := ((Coherent.start auto).runs ran).sound
  have listed : key ∈ (w.server.posts uid).keys ↔ some key ∈ (journal uid w.server.log).map Post.id := by
    rw [(sound.lists uid).keys sound]
    simp
  rw [World.HasRecord,listed,List.mem_map]
  constructor
  · intro both
    obtain ⟨post,kept,named⟩ := both
    obtain ⟨saved,never⟩ := (sound.kept uid post).mp kept
    exact ⟨⟨post,named,(log_exact ran).mp saved⟩,fun deleted => never key named ((log_exact ran).mpr deleted)⟩
  · intro both
    obtain ⟨⟨post,named,saved⟩,never⟩ := both
    refine ⟨post,(sound.kept uid post).mpr ⟨(log_exact ran).mpr saved,fun other isKey removed => ?_⟩,named⟩
    cases named.symm.trans isKey
    exact never ((log_exact ran).mp removed)

theorem hasPhoto_uploaded {events : List (Event D)} (ran : runs auto World.start events = some w) {uid key : String} :
    w.HasPhoto uid key ↔ WasUploaded auto events uid key :=
  (((Coherent.start auto).runs ran).sound.objects _).trans (log_exact ran)

theorem uploaded_saved {events : List (Event D)} {uid key : String}
    (uploaded : WasUploaded auto events uid key) : WasSaved auto events uid key := by
  obtain ⟨past,event,rest,before,split,reached,index,upload,_,pending,path⟩ := uploaded
  have placed := (((Coherent.start auto).runs reached).held event.1).uploads upload (List.mem_of_getElem? pending)
  cases closure : upload.closure with
  | post post =>
      obtain ⟨owner,other,named,same,saved⟩ := placed.post post closure
      rw [same] at path
      cases path
      exact ⟨post,named,split ▸ ((log_exact reached).mp saved).extend (event :: rest)⟩
  | profilePhoto =>
      obtain ⟨owner,same⟩ := placed.profile closure
      simp [same] at path

theorem hasPhoto_exact {events : List (Event D)} (ran : runs auto World.start events = some w) {uid key : String} :
    w.HasPhoto uid key ↔ WasSaved auto events uid key ∧ WasUploaded auto events uid key := by
  rw [hasPhoto_uploaded ran]
  exact ⟨fun uploaded => ⟨uploaded_saved uploaded,uploaded⟩,And.right⟩

-- Nothing in the program takes a record back when its upload fails, or deletes a
-- photo: a failure leaves both stores alone, a deletion the photos.
def OneWay (before : World D) (event : Event D) (after : World D) : Prop :=
  (∀ index, event.2 = .uploadDone index false → after.server = before.server) ∧
    ∀ row, event.2 = .delete row → after.server.objects = before.server.objects

theorem step_oneWay {event : Event D} (taken : step auto w event = some next) : OneWay w event next := by
  obtain ⟨d,action⟩ := event
  obtain ⟨_,reaction,rule,rfl⟩ := step_iff.mp taken
  rw [OneWay,commit_server]
  constructor
  · intro index same
    cases same
    cases rule
    rfl
  · intro row same
    cases same
    cases rule <;> rfl

theorem pairing_exact {events : List (Event D)} (ran : runs auto World.start events = some w) :
    (∀ uid key, w.HasRecord uid key ↔ WasSaved auto events uid key ∧ ¬ WasDeleted auto events uid key) ∧
    (∀ uid key, w.HasPhoto uid key ↔ WasSaved auto events uid key ∧ WasUploaded auto events uid key) ∧
    (∀ uid, (∀ key, w.HasRecord uid key ↔ w.HasPhoto uid key) ↔ ∀ key, WasSaved auto events uid key →
      (WasUploaded auto events uid key ↔ ¬ WasDeleted auto events uid key)) ∧
    Runs.Throughout (step auto) World.start events fun _ => OneWay := by
  refine ⟨fun uid key => hasRecord_exact ran,fun uid key => hasPhoto_exact ran,fun uid => ?_,?_⟩
  · refine forall_congr' fun key => ?_
    rw [hasRecord_exact ran,hasPhoto_exact ran,and_congr_right_iff]
    exact imp_congr_right fun _ => iff_comm
  · exact fun past event rest before after _ _ taken => step_oneWay taken

theorem pairing_oneSave :
    let events : List (Event Unit) := [((),.signIn ⟨"u",some "U"⟩),((),.viewDidAppear),
      ((),.saveNewPost ⟨"one","Montréal","May 1",some ⟨some [255]⟩⟩),((),.uploadDone 0 true)]
    ∃ w, runs .letters World.start events = some w ∧ ∀ uid, (∀ key, w.HasRecord uid key ↔ w.HasPhoto uid key) ↔
      ∀ key, WasSaved .letters events uid key →
        (WasUploaded .letters events uid key ↔ ¬ WasDeleted .letters events uid key) := by
  intro events
  obtain ⟨w,ran⟩ := Option.isSome_iff_exists.mp
    (show (runs .letters (World.start : World Unit) events).isSome = true by decide)
  exact ⟨w,ran,(pairing_exact ran).2.2.1⟩

theorem pairing_afterFailure_fails :
    ∃ w : World Unit, runs .letters World.start [((),.signIn ⟨"u",some "U"⟩),((),.viewDidAppear),
      ((),.saveNewPost ⟨"one","Montréal","May 1",some ⟨some [255]⟩⟩),((),.uploadDone 0 false)] = some w ∧
      (∀ d, (w.device d).uploads = []) ∧ ¬ ∀ uid key, w.HasRecord uid key ↔ w.HasPhoto uid key := by
  obtain ⟨w,ran,idle,recorded,photo⟩ := Runs.run_reaches (show (runs .letters (World.start : World Unit)
    [((),.signIn ⟨"u",some "U"⟩),((),.viewDidAppear),
      ((),.saveNewPost ⟨"one","Montréal","May 1",some ⟨some [255]⟩⟩),((),.uploadDone 0 false)]).map (fun w =>
        decide ((w.device ()).uploads = [] ∧ "a" ∈ (w.server.posts "u").keys ∧
          (w.server.objects ["u","posts","a"]).isSome = false)) = some true by decide)
  refine ⟨w,ran,fun _ => idle,fun paired => ?_⟩
  have stored : (w.server.objects ["u","posts","a"]).isSome = true := (paired "u" "a").mp recorded
  exact absurd (stored.symm.trans photo) (by decide)

end Journey
