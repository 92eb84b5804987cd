import Journey.Coherence

namespace Journey

variable {D : Type} [DecidableEq D] {auto : AutoId} {w next : World D}

def Saves (auto : AutoId) (uid : String) (post : Post) (w : World D) (event : Event D) : Prop :=
  ∃ form, event.2 = .saveNewPost form ∧ form.text ≠ "" ∧ form.image ≠ none ∧
    (w.device event.1).uid = some uid ∧ post = form.post (auto.key w.server.drawn)

def Deletes (uid key : String) (w : World D) (event : Event D) : Prop :=
  ∃ row post, event.2 = .delete row ∧ (w.device event.1).uid = some uid ∧
    (w.device event.1).posts[row]? = some post ∧ post.id = some key

def Stores (path : List String) (w : World D) (event : Event D) : Prop :=
  ∃ index upload, event.2 = .uploadDone index true ∧ (w.device event.1).uploads[index]? = some upload ∧
    upload.path = path

def Writes (auto : AutoId) : Write → World D → Event D → Prop
  | .saved uid post => Saves auto uid post
  | .removed uid key => Deletes uid key
  | .stored path => Stores path

omit [DecidableEq D] in
theorem saves_exact {d : D} {form : Form} {user : User} {image : UIImage} {uid : String} {post : Post}
    (text : form.text ≠ "") (photo : form.image = some image) (signed : (w.device d).currentUser = some user) :
    Saves auto uid post w (d,.saveNewPost form) ↔ user.uid = uid ∧ form.post (auto.key w.server.drawn) = post := by
  constructor
  · intro both
    obtain ⟨other,same,_,_,owner,isPost⟩ := both
    cases same
    rw [Device.uid,signed] at owner
    exact ⟨Option.some.inj owner,isPost.symm⟩
  · intro both
    obtain ⟨rfl,rfl⟩ := both
    exact ⟨form,rfl,text,by simp [photo],by simp [Device.uid,signed],rfl⟩

omit [DecidableEq D] in
theorem deletes_exact {d : D} {row : Nat} {user : User} {post : Post} {key uid removed : String}
    (signed : (w.device d).currentUser = some user) (found : (w.device d).posts[row]? = some post)
    (named : post.id = some key) :
    Deletes uid removed w (d,.delete row) ↔ user.uid = uid ∧ key = removed := by
  simp [Deletes,Device.uid,signed,found,named]

omit [DecidableEq D] in
theorem Reacts.writes {d : D} {action : Action} {reaction : Reaction} {write : Write}
    (rule : Reacts auto w.server (w.device d) action reaction) :
    reaction.request.bind Request.write = some write ↔ Writes auto write w (d,action) := by
  cases write with
  | saved uid post =>
      cases rule with
      | refused incomplete =>
          rcases incomplete with blank | missing
          · simp [Writes,Saves,blank]
          · simp [Writes,Saves,missing]
      | saveTrap text photo nobody => simp [Writes,Saves,Device.uid,nobody]
      | save text photo signed | saveUnencoded text photo signed =>
          rw [Writes,saves_exact text photo signed]
          simp [Request.write]
      | _ => simp [Writes,Saves,Request.write]
  | removed uid key =>
      cases rule with
      | deleteTrap inside missing =>
          rcases missing with nobody | lost
          · simp [Writes,Deletes,Device.uid,nobody]
          · simp only [Option.bind_eq_none_iff] at lost
            simp only [Writes,Deletes,Option.bind_none,reduceCtorEq,false_iff]
            intro both
            obtain ⟨row,post,same,_,found,named⟩ := both
            cases same
            exact absurd (named.symm.trans (lost post found)) (by simp)
      | delete inside signed found named | deleteRaise inside signed found named =>
          rw [Writes,deletes_exact signed found named]
          simp [Request.write]
      | _ => simp [Writes,Deletes,Request.write]
  | stored path =>
      cases rule with
      | uploaded pending | profileUploaded pending => simp [Writes,Stores,Request.write,pending]
      | _ => simp [Writes,Stores,Request.write]

theorem served_write (server : Server) (request : Option Request) :
    (server.served request).log = server.log ++ (request.bind Request.write).toList := by
  cases request with
  | none => simp
  | some request => exact apply_log server request

theorem step_log {d : D} {action : Action} {write : Write} (taken : step auto w (d,action) = some next) :
    write ∈ next.server.log ↔ write ∈ w.server.log ∨ Writes auto write w (d,action) := by
  obtain ⟨_,reaction,rule,rfl⟩ := step_iff.mp taken
  rw [commit_server,served_write,List.mem_append,Option.mem_toList,rule.writes]

theorem log_exact {events : List (Event D)} {write : Write} (ran : runs auto World.start events = some w) :
    write ∈ w.server.log ↔ Runs.Occurs (step auto) World.start events (Writes auto write) := by
  refine Runs.run_induction (I := fun events (w : World D) => write ∈ w.server.log ↔
    Runs.Occurs (step auto) World.start events (Writes auto write)) ?_ ?_ ran
  · simpa [World.start,Server.empty] using Runs.occurs_nil
  · intro past s event t reached ih taken
    rw [step_log taken,Runs.occurs_snoc reached,ih]

theorem saves_ordered {events : List (Event D)} (ran : runs auto World.start events = some w) :
    (saves w.server.log).Pairwise fun older newer =>
      Runs.Before (step auto) World.start events (Saves auto older.1 older.2) (Saves auto newer.1 newer.2) := by
  refine Runs.run_induction (I := fun events (w : World D) => (saves w.server.log).Pairwise fun older newer =>
    Runs.Before (step auto) World.start events (Saves auto older.1 older.2) (Saves auto newer.1 newer.2)) ?_ ?_ ran
  · exact .nil
  · intro past s event t reached ordered taken
    obtain ⟨d,action⟩ := event
    obtain ⟨_,reaction,rule,rfl⟩ := step_iff.mp taken
    rw [commit_server,served_write,saves,List.filterMap_append]
    refine List.pairwise_append.mpr ⟨?_,?_,?_⟩
    · exact ordered.imp fun before => (Runs.before_snoc reached).mpr (.inl before)
    · cases reaction.request.bind Request.write with
      | none => exact .nil
      | some write => cases write <;> simp [List.filterMap_cons,Write.save?]
    · intro older inside newer added
      obtain ⟨write,issued,found⟩ := List.mem_filterMap.mp added
      have happened := rule.writes.mp (Option.mem_toList.mp issued)
      cases write with
      | saved uid post =>
          cases found
          have earlier := (log_exact reached).mp (mem_saves.mp inside)
          exact (Runs.before_snoc reached).mpr (.inr ⟨happened,earlier⟩)
      | removed => cases found
      | stored => cases found

end Journey
