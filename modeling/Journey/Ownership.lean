import Journey.World

namespace Journey

variable {D : Type} [DecidableEq D] {auto : AutoId} {w next : World D} {d : D}

def Untouched (account : String) (before after : Server) : Prop :=
  after.posts account = before.posts account ∧
    ∀ rest, after.objects (account :: rest) = before.objects (account :: rest)

def Issues (auto : AutoId) (device : D) (session : Option String) (upload : Upload) (w : World D) (event : Event D) :
    Prop :=
  event.1 = device ∧ (w.device device).uid = session ∧ ∃ next, step auto w event = some next ∧
    (next.device device).uploads = (w.device device).uploads ++ [upload]

-- The event is a write of a device that was in the session `session` when the
-- write was issued: at once for a record, when it was put under way for an upload.
def WritesFrom (auto : AutoId) (origin : World D) (past : List (Event D)) (session : Option String) (w : World D)
    (event : Event D) : Prop :=
  ((∃ form, event.2 = .saveNewPost form) ∨ ∃ row, event.2 = .delete row) ∧ (w.device event.1).uid = session ∨
    ∃ index upload, event.2 = .uploadDone index true ∧ (w.device event.1).uploads[index]? = some upload ∧
      Runs.Occurs (step auto) origin past (Issues auto event.1 session upload)

theorem apply_untouched {server : Server} {request : Request} {account : String}
    (target : request.target ≠ some account)
    (place : ∀ path data, request = .putObject path data → path.head? ≠ some account) :
    Untouched account server (server.apply request) := by
  refine ⟨apply_posts server target,fun rest => ?_⟩
  cases request with
  | putObject path data =>
      refine Function.update_of_ne ?_ _ _
      intro same
      subst same
      exact place _ data rfl rfl
  | _ => rfl

theorem Reacts.uploads {server : Server} {dev : Device} {action : Action} {reaction : Reaction}
    (rule : Reacts auto server dev action reaction) :
    (∃ user upload, dev.currentUser = some user ∧ upload.path.head? = some user.uid ∧
      (dev.after reaction.device).uploads = dev.uploads ++ [upload]) ∨
    (dev.after reaction.device).uploads.Sublist dev.uploads := by
  cases rule with
  | save _ _ signed => exact .inl ⟨_,_,signed,rfl,rfl⟩
  | profilePhoto _ signed => exact .inl ⟨_,_,signed,rfl,rfl⟩
  | uploaded | profileUploaded | uploadFailed => exact .inr (List.eraseIdx_sublist _ _)
  | appearNamed | delete => exact .inr (by simp [Device.after])
  | _ => exact .inr (List.Sublist.refl _)

theorem issues_place {session : Option String} {upload : Upload} {event : Event D}
    (issues : Issues auto d session upload w event) : upload.path.head? = session ∧ session ≠ none := by
  obtain ⟨rfl,rfl,next,taken,grown⟩ := issues
  obtain ⟨d,action⟩ := event
  obtain ⟨_,reaction,rule,rfl⟩ := step_iff.mp taken
  rw [commit_uploads] at grown
  rcases rule.uploads with ⟨user,new,signed,place,added⟩ | fewer
  · rw [added] at grown
    obtain rfl := List.singleton_inj.mp (List.append_cancel_left grown)
    simp [Device.uid,signed,place]
  · rw [grown] at fewer
    have shorter := fewer.length_le
    simp at shorter

theorem issued_before {origin : World D} {events : List (Event D)} {upload : Upload}
    (idle : ∀ d, (origin.device d).uploads = []) (ran : runs auto origin events = some w)
    (pending : upload ∈ (w.device d).uploads) :
    ∃ account, Runs.Occurs (step auto) origin events (Issues auto d (some account) upload) := by
  have issued := Runs.run_origin (fun w upload => upload ∈ (World.device w d).uploads)
    (fun upload w event => Issues auto d (w.device d).uid upload w event) (x := upload) ?_ ran pending
  · rcases issued with old | ⟨past,event,rest,before,split,reached,issues⟩
    · simp [idle] at old
    · obtain ⟨account,session⟩ := Option.ne_none_iff_exists'.mp (issues_place issues).2
      exact ⟨account,past,event,rest,before,split,reached,session ▸ issues⟩
  · intro w event next taken member
    obtain ⟨y,action⟩ := event
    by_cases same : d = y
    · subst same
      obtain ⟨_,reaction,rule,becomes⟩ := step_iff.mp taken
      have after : (next.device d).uploads = ((w.device d).after reaction.device).uploads := by
        rw [becomes,commit_uploads]
      rw [after] at member
      rcases rule.uploads with ⟨user,new,signed,place,added⟩ | fewer
      · rw [added] at member
        rcases List.mem_append.mp member with old | fresh
        · exact .inl old
        · obtain rfl := List.mem_singleton.mp fresh
          exact .inr ⟨rfl,rfl,next,taken,after.trans added⟩
      · exact .inl (fewer.subset member)
    · have uploads : (next.device d).uploads = (w.device d).uploads := by
        simpa only [local_uploads] using congrArg Device.uploads (step_other taken same)
      exact .inl (uploads ▸ member)

theorem occurs_place {origin : World D} {past : List (Event D)} {session : Option String} {upload : Upload}
    (occurs : Runs.Occurs (step auto) origin past (Issues auto d session upload)) : upload.path.head? = session := by
  obtain ⟨_,_,_,_,_,_,issues⟩ := occurs
  exact (issues_place issues).1

def Owned (auto : AutoId) (origin : World D) (past : List (Event D)) (w : World D) (event : Event D) (after : Server)
    (account : String) : Prop :=
  (¬ Untouched account w.server after → WritesFrom auto origin past (some account) w event) ∧
    ∀ session, WritesFrom auto origin past session w event → session ≠ some account →
      Untouched account w.server after

theorem record_owned {origin : World D} {past : List (Event D)} {action : Action} {request : Request} {user : User}
    (kind : (∃ form, action = .saveNewPost form) ∨ ∃ row, action = .delete row)
    (signed : (w.device d).currentUser = some user) (target : request.target = some user.uid) (account : String) :
    Owned auto origin past w (d,action) (w.server.apply request) account := by
  have session : (w.device d).uid = some user.uid := by simp [Device.uid,signed]
  have spared (other : user.uid ≠ account) : Untouched account w.server (w.server.apply request) := by
    refine apply_untouched (fun same => other (Option.some.inj (target.symm.trans same))) ?_
    intro path data same
    subst same
    cases target
  constructor
  · intro touched
    have same : user.uid = account := not_not.mp fun other => touched (spared other)
    exact .inl ⟨kind,same ▸ session⟩
  · intro other either different
    rcases either with ⟨_,rfl⟩ | ⟨index,upload,same,_⟩
    · exact spared fun equal => different (equal ▸ session)
    · rcases kind with ⟨form,rfl⟩ | ⟨row,rfl⟩ <;> cases same

theorem upload_owned {origin : World D} {past : List (Event D)} {index : Nat} {upload : Upload}
    (idle : ∀ d, (origin.device d).uploads = []) (reached : runs auto origin past = some w)
    (pending : (w.device d).uploads[index]? = some upload) (account : String) :
    Owned auto origin past w (d,.uploadDone index true) (w.server.apply (.putObject upload.path upload.data))
      account := by
  obtain ⟨owner,issued⟩ := issued_before idle reached (List.mem_of_getElem? pending)
  have spared (other : upload.path.head? ≠ some account) :
      Untouched account w.server (w.server.apply (.putObject upload.path upload.data)) := by
    refine apply_untouched (by simp [Request.target]) ?_
    intro path data same
    cases same
    exact other
  constructor
  · intro touched
    have same : upload.path.head? = some account := not_not.mp fun other => touched (spared other)
    exact .inr ⟨index,upload,rfl,pending,(occurs_place issued).symm.trans same ▸ issued⟩
  · intro other either different
    rcases either with ⟨⟨form,same⟩ | ⟨row,same⟩,_⟩ | ⟨place,found,same,waiting,from_other⟩
    · cases same
    · cases same
    · cases same
      cases pending.symm.trans waiting
      exact spared (occurs_place from_other ▸ different)

theorem step_owned {origin : World D} {past : List (Event D)} {event : Event D}
    (idle : ∀ d, (origin.device d).uploads = []) (reached : runs auto origin past = some w)
    (taken : step auto w event = some next) (account : String) :
    Owned auto origin past w event next.server account := by
  obtain ⟨d,action⟩ := event
  obtain ⟨_,reaction,rule,rfl⟩ := step_iff.mp taken
  rw [commit_server]
  have nothing : Untouched account w.server w.server := ⟨rfl,fun _ => rfl⟩
  cases rule with
  | save _ _ signed | saveUnencoded _ _ signed =>
      rw [served_some]
      exact record_owned (.inl ⟨_,rfl⟩) signed rfl account
  | delete _ signed | deleteRaise _ signed =>
      rw [served_some]
      exact record_owned (.inr ⟨_,rfl⟩) signed rfl account
  | uploaded pending | profileUploaded pending => exact upload_owned idle reached pending account
  | _ => exact ⟨fun touched => absurd nothing touched,fun _ _ _ => nothing⟩

theorem ownership {origin : World D} {events : List (Event D)} (idle : ∀ d, (origin.device d).uploads = []) :
    Runs.Throughout (step auto) origin events fun past before event after =>
      ∀ account, Owned auto origin past before event after.server account :=
  fun _ _ _ _ _ _ reached taken account => step_owned idle reached taken account

theorem ownership_twoAccounts :
    let events : List (Event Unit) := [((),.signIn ⟨"u",some "U"⟩),((),.viewDidAppear),
      ((),.saveNewPost ⟨"one","Montréal","May 1",some ⟨some [255]⟩⟩),((),.deliver 0),((),.deliver 0),
      ((),.signIn ⟨"v",some "V"⟩),((),.delete 0),((),.uploadDone 0 true)]
    (runs .letters World.start events).isSome = true ∧
      Runs.Throughout (step .letters) World.start events fun past before event after =>
        ∀ account, Owned .letters World.start past before event after.server account :=
  ⟨by decide,ownership fun _ => rfl⟩

end Journey
