import Mathlib.Data.List.Perm.Basic
import Journey.History

namespace Journey

variable {D : Type} [DecidableEq D] {auto : AutoId} {w next final : World D}

theorem log_continues {events : List (Event D)} {write : Write} (ran : runs auto w events = some final) :
    write ∈ final.server.log ↔ write ∈ w.server.log ∨ Runs.Occurs (step auto) w events (Writes auto write) := by
  refine Runs.run_induction (I := fun events (final : World D) => write ∈ final.server.log ↔
    write ∈ w.server.log ∨ Runs.Occurs (step auto) w events (Writes auto write)) ?_ ?_ ran
  · exact (or_iff_left Runs.occurs_nil).symm
  · intro past s event t reached ih taken
    rw [step_log taken,Runs.occurs_snoc reached,ih,or_assoc]

theorem Server.Sound.mem_rows {server : Server} (sound : server.Sound auto) {uid : String} {row : String × Child} :
    row ∈ (server.posts uid).rows ↔ ∃ post ∈ journal uid server.log, post.id = some row.1 ∧ post.entry = row := by
  rw [sound.rows,List.mem_map]
  refine exists_congr fun post => and_congr_right fun member => ⟨?_,And.right⟩
  intro same
  subst same
  obtain ⟨n,_,named⟩ := sound.kept_id member
  exact ⟨by simp [Post.entry,named],rfl⟩

theorem Server.Sound.mem_keys {server : Server} (sound : server.Sound auto) {uid key : String} :
    key ∈ (server.posts uid).keys ↔ ∃ post ∈ journal uid server.log, post.id = some key := by
  rw [KeyedStore.keys,List.mem_map]
  constructor
  · intro both
    obtain ⟨row,member,rfl⟩ := both
    obtain ⟨post,kept,named,_⟩ := sound.mem_rows.mp member
    exact ⟨post,kept,named⟩
  · intro both
    obtain ⟨post,kept,named⟩ := both
    exact ⟨post.entry,sound.mem_rows.mpr ⟨post,kept,by simp [Post.entry,named],rfl⟩,by simp [Post.entry,named]⟩

def RecordLasts (auto : AutoId) (w : World D) (rest : List (Event D)) (final : World D) (uid : String)
    (row : String × Child) : Prop :=
  (row ∈ (final.server.posts uid).rows ↔ ¬ Runs.Occurs (step auto) w rest (Deletes uid row.1)) ∧
    (row.1 ∈ (final.server.posts uid).keys → row ∈ (final.server.posts uid).rows)

theorem record_lasts {rest : List (Event D)} {uid : String} {row : String × Child} (coherent : Coherent auto w)
    (ran : runs auto w rest = some final) (member : row ∈ (w.server.posts uid).rows) :
    RecordLasts auto w rest final uid row := by
  have sound := (coherent.runs ran).sound
  obtain ⟨post,kept,named,same⟩ := coherent.sound.mem_rows.mp member
  obtain ⟨saved,unremoved⟩ := (coherent.sound.kept uid post).mp kept
  have later : Write.saved uid post ∈ final.server.log := (log_continues ran).mpr (.inl saved)
  have only {other : Post} (listed : other ∈ journal uid final.server.log) (isKey : other.id = some row.1) :
      other = post := (sound.save_unique (journal_saved listed) later (isKey.trans named.symm)).2
  have present : row ∈ (final.server.posts uid).rows ↔ post ∈ journal uid final.server.log := by
    refine ⟨fun listed => ?_,fun listed => sound.mem_rows.mpr ⟨post,listed,named,same⟩⟩
    obtain ⟨other,inside,isKey,_⟩ := sound.mem_rows.mp listed
    exact only inside isKey ▸ inside
  refine ⟨?_,fun listed => ?_⟩
  · have removed : Write.removed uid row.1 ∈ final.server.log ↔ Runs.Occurs (step auto) w rest (Deletes uid row.1) :=
      (log_continues ran).trans (or_iff_right (unremoved row.1 named))
    rw [present,sound.kept,← removed]
    refine ⟨fun both => both.2 row.1 named,fun never => ⟨later,fun key isKey => ?_⟩⟩
    rw [named] at isKey
    exact Option.some.inj isKey ▸ never
  · obtain ⟨other,inside,isKey⟩ := sound.mem_keys.mp listed
    exact present.mpr (only inside isKey ▸ inside)

theorem record_new {rest : List (Event D)} {uid key : String} (coherent : Coherent auto w)
    (ran : runs auto w rest = some final) (listed : key ∈ (final.server.posts uid).keys)
    (new : key ∉ (w.server.posts uid).keys) :
    (∃ post, post.id = some key ∧ Runs.Occurs (step auto) w rest (Saves auto uid post)) ∧
      ∀ owner post, post.id = some key → Write.saved owner post ∉ w.server.log := by
  have sound := (coherent.runs ran).sound
  obtain ⟨post,kept,named⟩ := sound.mem_keys.mp listed
  obtain ⟨saved,unremoved⟩ := (sound.kept uid post).mp kept
  have fresh : ∀ owner other, other.id = some key → Write.saved owner other ∉ w.server.log := by
    intro owner other isKey before
    obtain ⟨rfl,rfl⟩ := sound.save_unique ((log_continues ran).mpr (.inl before)) saved (isKey.trans named.symm)
    refine new (coherent.sound.mem_keys.mpr
      ⟨other,(coherent.sound.kept _ _).mpr ⟨before,fun k isKey removed => ?_⟩,named⟩)
    exact unremoved k isKey ((log_continues ran).mpr (.inl removed))
  exact ⟨⟨post,named,((log_continues ran).mp saved).resolve_left (fresh uid post named)⟩,fresh⟩

theorem records_immutable {past rest : List (Event D)} (reached : runs auto World.start past = some w)
    (ran : runs auto w rest = some final) (uid : String) :
    (∀ row ∈ (w.server.posts uid).rows, RecordLasts auto w rest final uid row) ∧
      ∀ key ∈ (final.server.posts uid).keys, key ∉ (w.server.posts uid).keys →
        (∃ post, post.id = some key ∧ Runs.Occurs (step auto) w rest (Saves auto uid post)) ∧
          ∀ owner post, post.id = some key → ¬ Runs.Occurs (step auto) World.start past (Saves auto owner post) := by
  have coherent := (Coherent.start auto).runs reached
  refine ⟨fun row member => record_lasts coherent ran member,fun key listed new => ?_⟩
  obtain ⟨saved,fresh⟩ := record_new coherent ran listed new
  refine ⟨saved,fun owner post named occurs => fresh owner post named ?_⟩
  have written : Runs.Occurs (step auto) World.start past (Writes auto (.saved owner post)) := occurs
  exact (log_exact reached).mpr written

-- A record that is deleted and then saved again with the same text has a new key.
theorem records_immutable_deleted :
    let past : List (Event Unit) := [((),.signIn ⟨"u",some "U"⟩),((),.viewDidAppear),
      ((),.saveNewPost ⟨"one","Montréal","May 1",some ⟨some [255]⟩⟩),((),.deliver 0),((),.deliver 0)]
    let rest : List (Event Unit) := [((),.delete 0),
      ((),.saveNewPost ⟨"one","Montréal","May 1",some ⟨some [255]⟩⟩)]
    ∃ w final, runs .letters World.start past = some w ∧ runs .letters w rest = some final ∧
      (final.server.posts "u").keys = ["aa"] ∧
      ∀ row ∈ (w.server.posts "u").rows, RecordLasts .letters w rest final "u" row := by
  intro past rest
  obtain ⟨w,final,reached,ran,keys⟩ : ∃ w final, runs .letters World.start past = some w ∧
      runs .letters w rest = some final ∧ (final.server.posts "u").keys = ["aa"] :=
    Runs.run_continues (P := fun _ (final : World Unit) => (final.server.posts "u").keys = ["aa"]) (by decide)
  exact ⟨w,final,reached,ran,keys,(records_immutable reached ran "u").1⟩

def Upload.photoPath (upload : Upload) : Option (List String) :=
  match upload.closure with
  | .post _ => some upload.path
  | .profilePhoto => none

def Device.photoPaths (d : Device) : List (List String) := d.uploads.filterMap Upload.photoPath

-- A photo on its way is that of a saved post and has a place of its own, where
-- nothing is stored yet.
structure PhotosOnce (w : World D) : Prop where
  pending : ∀ x, ∀ upload ∈ (w.device x).uploads, ∀ post, upload.closure = .post post →
    post.image.bind UIImage.jpeg = some upload.data ∧ w.server.objects upload.path = none
  stored : ∀ uid key data, w.server.objects [uid,"posts",key] = some data → ∃ post,
    Write.saved uid post ∈ w.server.log ∧ post.id = some key ∧ post.image.bind UIImage.jpeg = some data
  once : ∀ x, (w.device x).photoPaths.Nodup
  apart : ∀ x y, x ≠ y → ∀ path ∈ (w.device x).photoPaths, path ∉ (w.device y).photoPaths

theorem mem_photoPaths {dev : Device} {path : List String} : path ∈ dev.photoPaths ↔
    ∃ upload ∈ dev.uploads, ∃ post, upload.closure = .post post ∧ upload.path = path := by
  simp only [Device.photoPaths,List.mem_filterMap]
  refine exists_congr fun upload => and_congr_right fun _ => ?_
  obtain ⟨place,data,closure⟩ := upload
  cases closure <;> simp [Upload.photoPath]

theorem photoPaths_erase {dev : Device} {index : Nat} {upload : Upload} {path : List String}
    (pending : dev.uploads[index]? = some upload) (photo : upload.photoPath = some path)
    (once : dev.photoPaths.Nodup) :
    path ∉ ({dev with uploads := dev.uploads.eraseIdx index} : Device).photoPaths := by
  obtain ⟨inside,rfl⟩ := List.getElem?_eq_some_iff.mp pending
  have order := (List.getElem_cons_eraseIdx_perm inside).filterMap Upload.photoPath
  rw [List.filterMap_cons,photo] at order
  exact (List.nodup_cons.mp (order.nodup_iff.mpr once)).1

theorem commit_allUploads (w : World D) (d x : D) (reaction : Reaction) : ((w.commit d reaction).device x).uploads =
    if x = d then ((w.device d).after reaction.device).uploads else (w.device x).uploads := by
  by_cases same : x = d
  · subst same
    rw [if_pos rfl,commit_uploads]
  · rw [if_neg same]
    simpa only [local_uploads] using congrArg Device.uploads (commit_other w reaction same)

omit [DecidableEq D] in
theorem PhotosOnce.fewer (photos : PhotosOnce w) (coherent : Coherent auto w)
    (objects : ∀ uid key, next.server.objects [uid,"posts",key] = w.server.objects [uid,"posts",key])
    (grows : w.server.log ⊆ next.server.log)
    (uploads : ∀ x, (next.device x).uploads.Sublist (w.device x).uploads ∨
      ∃ upload, upload.closure = .profilePhoto ∧ (next.device x).uploads = (w.device x).uploads ++ [upload]) :
    PhotosOnce next := by
  have subset : ∀ x, ∀ upload ∈ (next.device x).uploads, ∀ post, upload.closure = .post post →
      upload ∈ (w.device x).uploads := by
    intro x upload member post closure
    rcases uploads x with fewer | ⟨profile,kind,added⟩
    · exact fewer.subset member
    · rw [added] at member
      rcases List.mem_append.mp member with old | new
      · exact old
      · rw [List.mem_singleton.mp new,kind] at closure
        cases closure
  have paths : ∀ x, (next.device x).photoPaths.Sublist (w.device x).photoPaths := by
    intro x
    rcases uploads x with fewer | ⟨profile,kind,added⟩
    · exact fewer.filterMap _
    · simp [Device.photoPaths,added,Upload.photoPath,kind]
  refine ⟨?_,?_,?_,?_⟩
  · intro x upload member post closure
    have before := subset x upload member post closure
    obtain ⟨uid,key,_,place,_⟩ := ((coherent.held x).uploads upload before).post post closure
    rw [place,objects,← place]
    exact photos.pending x upload before post closure
  · intro uid key data found
    rw [objects] at found
    exact (photos.stored uid key data found).imp fun post both => ⟨grows both.1,both.2⟩
  · exact fun x => (photos.once x).sublist (paths x)
  · exact fun x y other path member shared => photos.apart x y other path ((paths x).subset member)
      ((paths y).subset shared)

omit [DecidableEq D] in
theorem photoPaths_drawn (coherent : Coherent auto w) {x : D} {path : List String}
    (member : path ∈ (w.device x).photoPaths) :
    ∃ uid n, n < w.server.drawn ∧ path = [uid,"posts",auto.key n] := by
  obtain ⟨upload,inside,post,closure,rfl⟩ := mem_photoPaths.mp member
  obtain ⟨uid,key,named,place,saved⟩ := ((coherent.held x).uploads upload inside).post post closure
  obtain ⟨n,below,isKey⟩ := coherent.sound.drawn_id saved
  obtain rfl := Option.some.inj (named.symm.trans isKey)
  exact ⟨uid,n,below,place⟩

omit [DecidableEq D] in
theorem unused_place (coherent : Coherent auto w) (photos : PhotosOnce w) (uid : String) :
    w.server.objects [uid,"posts",auto.key w.server.drawn] = none ∧
      ∀ x, [uid,"posts",auto.key w.server.drawn] ∉ (w.device x).photoPaths := by
  constructor
  · rw [Option.eq_none_iff_forall_ne_some]
    intro data found
    obtain ⟨post,saved,named,_⟩ := photos.stored _ _ _ found
    obtain ⟨n,below,isKey⟩ := coherent.sound.drawn_id saved
    have same := auto.key_injective (Option.some.inj (named.symm.trans isKey))
    omega
  · intro x member
    obtain ⟨owner,n,below,place⟩ := photoPaths_drawn coherent member
    have same : auto.key w.server.drawn = auto.key n := by simpa using (List.cons.inj (List.cons.inj place).2).2
    have equal := auto.key_injective same
    omega

theorem PhotosOnce.saved (photos : PhotosOnce w) (coherent : Coherent auto w) {d : D} {uid : String} {post : Post}
    {data : List UInt8} (objects : next.server.objects = w.server.objects)
    (grows : w.server.log ⊆ next.server.log) (encoded : post.image.bind UIImage.jpeg = some data)
    (uploads : ∀ x, (next.device x).uploads = if x = d then
      (w.device x).uploads ++ [.ofPost uid (auto.key w.server.drawn) data post] else (w.device x).uploads) :
    PhotosOnce next := by
  obtain ⟨nothing,unused⟩ := unused_place coherent photos uid
  have paths : ∀ x, (next.device x).photoPaths = if x = d then
      (w.device x).photoPaths ++ [[uid,"posts",auto.key w.server.drawn]] else (w.device x).photoPaths := by
    intro x
    rw [Device.photoPaths,uploads x]
    by_cases same : x = d
    · rw [if_pos same,if_pos same,List.filterMap_append]
      rfl
    · rw [if_neg same,if_neg same]
      rfl
  refine ⟨?_,?_,?_,?_⟩
  · intro x upload member other closure
    rw [objects]
    rw [uploads x] at member
    split at member
    · rcases List.mem_append.mp member with old | new
      · exact photos.pending x upload old other closure
      · obtain rfl := List.mem_singleton.mp new
        cases closure
        exact ⟨encoded,nothing⟩
    · exact photos.pending x upload member other closure
  · intro owner key stored found
    rw [objects] at found
    exact (photos.stored owner key stored found).imp fun post both => ⟨grows both.1,both.2⟩
  · intro x
    rw [paths x]
    split
    · refine List.nodup_append.mpr ⟨photos.once x,List.nodup_singleton _,?_⟩
      intro path member other new same
      exact unused x (List.mem_singleton.mp new ▸ same ▸ member)
    · exact photos.once x
  · intro x y other path member shared
    rw [paths x] at member
    rw [paths y] at shared
    have apart := photos.apart x y other path
    split at member
    · rename_i here
      rw [if_neg fun there => other (here.trans there.symm)] at shared
      rcases List.mem_append.mp member with old | new
      · exact apart old shared
      · exact unused y (List.mem_singleton.mp new ▸ shared)
    · split at shared
      · rcases List.mem_append.mp shared with old | new
        · exact apart member old
        · exact unused x (List.mem_singleton.mp new ▸ member)
      · exact apart member shared

theorem PhotosOnce.uploaded (photos : PhotosOnce w) (coherent : Coherent auto w) {d : D} {index : Nat}
    {path : List String} {data : List UInt8} {post : Post}
    (pending : (w.device d).uploads[index]? = some ⟨path,data,.post post⟩)
    (objects : next.server.objects = Function.update w.server.objects path (some data))
    (grows : w.server.log ⊆ next.server.log)
    (uploads : ∀ x, (next.device x).uploads =
      if x = d then (w.device x).uploads.eraseIdx index else (w.device x).uploads) : PhotosOnce next := by
  have member := List.mem_of_getElem? pending
  have listed : path ∈ (w.device d).photoPaths := mem_photoPaths.mpr ⟨_,member,post,rfl,rfl⟩
  have fewer : ∀ x, (next.device x).uploads.Sublist (w.device x).uploads := by
    intro x
    rw [uploads x]
    split
    · exact List.eraseIdx_sublist _ _
    · exact List.Sublist.refl _
  have paths : ∀ x, (next.device x).photoPaths.Sublist (w.device x).photoPaths := fun x => (fewer x).filterMap _
  have gone : ∀ x, path ∉ (next.device x).photoPaths := by
    intro x again
    by_cases same : x = d
    · subst same
      refine photoPaths_erase pending rfl (photos.once x) ?_
      rw [Device.photoPaths,uploads x,if_pos rfl] at again
      exact again
    · exact photos.apart x d same path ((paths x).subset again) listed
  refine ⟨?_,?_,?_,?_⟩
  · intro x upload inside other closure
    obtain ⟨encoded,nothing⟩ := photos.pending x upload ((fewer x).subset inside) other closure
    refine ⟨encoded,?_⟩
    rw [objects,Function.update_of_ne]
    · exact nothing
    · intro same
      exact gone x (same ▸ mem_photoPaths.mpr ⟨upload,inside,other,closure,rfl⟩)
  · intro uid key stored found
    rw [objects] at found
    by_cases same : [uid,"posts",key] = path
    · subst same
      rw [Function.update_self] at found
      cases found
      obtain ⟨owner,k,named,place,saved⟩ := ((coherent.held d).uploads _ member).post post rfl
      cases place
      exact ⟨post,grows saved,named,(photos.pending d _ member post rfl).1⟩
    · rw [Function.update_of_ne same] at found
      exact (photos.stored uid key stored found).imp fun post both => ⟨grows both.1,both.2⟩
  · exact fun x => (photos.once x).sublist (paths x)
  · exact fun x y other shared inside both => photos.apart x y other shared ((paths x).subset inside)
      ((paths y).subset both)

def PhotosKept (before after : Server) : Prop :=
  ∀ uid key data, before.objects [uid,"posts",key] = some data → after.objects [uid,"posts",key] = some data

theorem step_photos {event : Event D} (coherent : Coherent auto w) (photos : PhotosOnce w)
    (taken : step auto w event = some next) : PhotosOnce next ∧ PhotosKept w.server next.server := by
  obtain ⟨d,action⟩ := event
  obtain ⟨_,reaction,rule,rfl⟩ := step_iff.mp taken
  have server := commit_server w d reaction
  have uploads := fun x => commit_allUploads w d x reaction
  have grows : w.server.log ⊆ (w.commit d reaction).server.log := server ▸ served_log w.server reaction.request
  -- Everything but a save and a stored photo.
  have quiet (objects : ∀ uid key, (w.server.served reaction.request).objects [uid,"posts",key] =
        w.server.objects [uid,"posts",key])
      (change : ((w.device d).after reaction.device).uploads.Sublist (w.device d).uploads ∨
        ∃ upload, upload.closure = .profilePhoto ∧
          ((w.device d).after reaction.device).uploads = (w.device d).uploads ++ [upload]) :
      PhotosOnce (w.commit d reaction) ∧ PhotosKept w.server (w.commit d reaction).server := by
    rw [← server] at objects
    refine ⟨photos.fewer coherent objects grows fun x => ?_,fun uid key data found => (objects uid key).trans found⟩
    rw [uploads x]
    split
    · rename_i same
      exact same ▸ change
    · exact .inl (List.Sublist.refl _)
  have same : ∀ uid key, w.server.objects [uid,"posts",key] = w.server.objects [uid,"posts",key] := fun _ _ => rfl
  have own (change : List Upload → List Upload)
      (changed : ((w.device d).after reaction.device).uploads = change (w.device d).uploads) (x : D) :
      ((w.commit d reaction).device x).uploads =
        if x = d then change (w.device x).uploads else (w.device x).uploads := by
    rw [uploads x,changed]
    split
    · rename_i here
      rw [here]
    · rfl
  cases rule with
  | @save form user image data text photo signed encoded =>
      have encodes : (form.post (auto.key w.server.drawn)).image.bind UIImage.jpeg = some data := by
        simp [Form.post,photo,encoded]
      refine ⟨photos.saved coherent (by rw [server]; rfl) grows encodes (own (· ++ [.ofPost user.uid
        (auto.key w.server.drawn) data (form.post (auto.key w.server.drawn))]) rfl),fun uid key stored found => ?_⟩
      rw [server]
      exact found
  | @uploaded index path data post pending =>
      refine ⟨photos.uploaded coherent pending (by rw [server]; rfl) grows (own (·.eraseIdx index) rfl),
        fun uid key stored found => ?_⟩
      have nothing := (photos.pending d _ (List.mem_of_getElem? pending) post rfl).2
      have other : [uid,"posts",key] ≠ path := by
        intro here
        rw [here,nothing] at found
        cases found
      rw [server]
      exact (Function.update_of_ne other _ _).trans found
  | @profileUploaded index path data pending =>
      obtain ⟨owner,rfl⟩ := ((coherent.held d).uploads _ (List.mem_of_getElem? pending)).profile rfl
      refine quiet (fun uid key => Function.update_of_ne ?_ _ _) (.inl (List.eraseIdx_sublist _ _))
      simp
  | profilePhoto encoded signed => exact quiet same (.inr ⟨_,rfl,rfl⟩)
  | uploadFailed pending => exact quiet same (.inl (List.eraseIdx_sublist _ _))
  | appearNamed | delete => exact quiet same (.inl (by simp [Device.after]))
  | _ => exact quiet same (.inl (List.Sublist.refl _))

theorem photos_immutable (events : List (Event D)) :
    Runs.Throughout (step auto) World.start events (fun _ w _ next => PhotosKept w.server next.server) ∧
      Runs.Always (step auto) World.start events fun past w => ∀ uid key data,
        w.server.objects [uid,"posts",key] = some data → ∃ post, post.id = some key ∧
          post.image.bind UIImage.jpeg = some data ∧
          Runs.Occurs (step auto) World.start past (Saves auto uid post) := by
  have invariant {past : List (Event D)} {w : World D} (reached : runs auto World.start past = some w) :
      Coherent auto w ∧ PhotosOnce w := by
    refine Runs.run_invariant (I := fun w => Coherent auto w ∧ PhotosOnce w) ⟨.start auto,?_⟩ ?_ reached
    · exact ⟨by simp [World.start,Device.launched],by simp [World.start,Server.empty],
        by simp [World.start,Device.launched,Device.photoPaths],by simp [World.start,Device.launched,Device.photoPaths]⟩
    · exact fun s e t both taken => ⟨both.1.step taken,(step_photos both.1 both.2 taken).1⟩
  constructor
  · intro past event rest w next _ reached taken
    obtain ⟨coherent,photos⟩ := invariant reached
    exact (step_photos coherent photos taken).2
  · intro past rest w _ reached uid key data found
    obtain ⟨post,saved,named,encoded⟩ := (invariant reached).2.stored uid key data found
    have written : Runs.Occurs (step auto) World.start past (Writes auto (.saved uid post)) :=
      (log_exact reached).mp saved
    exact ⟨post,named,encoded,written⟩

end Journey
