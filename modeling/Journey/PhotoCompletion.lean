import Journey.History

namespace Journey

variable {D : Type} [DecidableEq D] {auto : AutoId} {w next : World D}

def Device.Undisturbed (d next : Device) : Prop :=
  next.running = true ∧ next.posts.map Post.described = d.posts.map Post.described

def UrlRequest.InPlace (request : UrlRequest) (d : Device) : Prop :=
  ∃ post, d.posts[request.item]? = some post ∧ post.described = request.post.described

def Requested (device : D) (request : UrlRequest) (w : World D) (event : Event D) : Prop :=
  event = (device,.cellForRowAt request.item request.cell) ∧
    (w.device device).posts[request.item]? = some request.post ∧ request.post.image = none ∧
    ∃ user id, (w.device device).currentUser = some user ∧ request.post.id = some id ∧
      request.path = [user.uid,"posts",id]

theorem step_urlDone {device : D} {index : Nat} {found : Bool} {request : UrlRequest}
    (taken : step auto w (device,.urlDone index found) = some next)
    (pending : (w.device device).urls[index]? = some request) :
    (w.device device).Undisturbed (next.device device) ↔ (found = true → request.InPlace (w.device device)) := by
  obtain ⟨running,reaction,rule,rfl⟩ := step_iff.mp taken
  rw [Device.Undisturbed,commit_running,commit_posts]
  cases rule with
  | urlFailed waiting => simp [Device.after,running]
  | urlFound waiting inside =>
      cases waiting.symm.trans pending
      simp only [Device.after,Device.setCell,running,true_and,forall_const]
      exact map_set_same Post.described _ inside
  | urlTrap waiting past =>
      cases waiting.symm.trans pending
      simp only [Device.after,Bool.false_eq_true,false_and,forall_const,false_iff]
      intro both
      obtain ⟨post,found,_⟩ := both
      exact absurd (List.getElem?_eq_some_iff.mp found).1 (Nat.not_lt.mpr past)

theorem Reacts.requests {server : Server} {dev : Device} {action : Action} {reaction : Reaction}
    (rule : Reacts auto server dev action reaction) {request : UrlRequest}
    (pending : request ∈ (dev.after reaction.device).urls) : request ∈ dev.urls ∨
      action = .cellForRowAt request.item request.cell ∧ dev.posts[request.item]? = some request.post ∧
        request.post.image = none ∧ ∃ user id, dev.currentUser = some user ∧ request.post.id = some id ∧
          request.path = [user.uid,"posts",id] := by
  cases rule with
  | @cellRequest row cell post user id inside found photo signed named =>
      rcases List.mem_append.mp pending with old | new
      · exact .inl old
      · rw [List.mem_singleton.mp new]
        exact .inr ⟨rfl,found,photo,user,id,signed,named,rfl⟩
  | urlFailed | urlFound => exact .inl (List.mem_of_mem_eraseIdx pending)
  | appearNamed | delete => exact .inl (by simpa [Device.after] using pending)
  | _ => exact .inl pending

theorem requested_before {events : List (Event D)} {device : D} {request : UrlRequest}
    (ran : runs auto World.start events = some w) (pending : request ∈ (w.device device).urls) :
    Runs.Occurs (step auto) World.start events (Requested device request) := by
  have origin := Runs.run_origin (fun w request => request ∈ (World.device w device).urls)
    (fun request => Requested device request) (x := request) ?_ ran pending
  · rcases origin with start | happened
    · simp [World.start,Device.launched] at start
    · exact happened
  · intro w event next taken pending
    obtain ⟨d,action⟩ := event
    by_cases same : device = d
    · subst same
      obtain ⟨_,reaction,rule,rfl⟩ := step_iff.mp taken
      rw [commit_urls] at pending
      rcases rule.requests pending with old | ⟨called,bound⟩
      · exact .inl old
      · exact .inr ⟨by rw [called],bound⟩
    · have urls : (next.device device).urls = (w.device device).urls := by
        simpa only [local_urls] using congrArg Device.urls (step_other taken same)
      exact .inl (urls ▸ pending)

def CompletionsUndisturbed (auto : AutoId) (events : List (Event D)) : Prop :=
  Runs.Throughout (step auto) World.start events fun _ before event after => ∀ index found,
    event.2 = .urlDone index found → (before.device event.1).Undisturbed (after.device event.1)

theorem photoCompletions_exact {events : List (Event D)} (ran : runs auto World.start events = some w) :
    CompletionsUndisturbed auto events ↔
      Runs.Guarded (step auto) World.start events fun past before event => ∀ index request,
        event.2 = .urlDone index true → (before.device event.1).urls[index]? = some request →
        Runs.Occurs (step auto) World.start past (Requested event.1 request) →
        request.InPlace (before.device event.1) := by
  refine Runs.throughout_iff_guarded ?_ ran
  intro past before event after reached taken
  obtain ⟨device,action⟩ := event
  constructor
  · intro undisturbed index request completion pending _
    cases completion
    exact (step_urlDone taken pending).mp (undisturbed index true rfl) rfl
  · intro inPlace index found completion
    cases completion
    have ⟨_,_,rule,_⟩ := step_iff.mp taken
    cases rule with
    | urlFailed pending => exact (step_urlDone taken pending).mpr (by simp)
    | @urlFound _ request pending _ | @urlTrap _ request pending _ =>
        refine (step_urlDone taken pending).mpr fun _ => ?_
        exact inPlace index request rfl pending (requested_before reached (List.mem_of_getElem? pending))

theorem photoCompletions_one :
    let events : List (Event Unit) := [((),.signIn ⟨"u",some "U"⟩),((),.viewDidAppear),
      ((),.saveNewPost ⟨"one","Montréal","May 1",some ⟨some [255]⟩⟩),((),.deliver 0),((),.deliver 0),
      ((),.cellForRowAt 0 0),((),.urlDone 0 true)]
    CompletionsUndisturbed .letters events ↔
      Runs.Guarded (step .letters) World.start events fun past before event => ∀ index request,
        event.2 = .urlDone index true → (before.device event.1).urls[index]? = some request →
        Runs.Occurs (step .letters) World.start past (Requested event.1 request) →
        request.InPlace (before.device event.1) := by
  intro events
  obtain ⟨w,ran⟩ := Option.isSome_iff_exists.mp
    (show (runs .letters (World.start : World Unit) events).isSome = true by decide)
  exact photoCompletions_exact ran

-- The row is deleted while the download URL of its photo is on its way: the
-- removal at index 0 of an empty list traps.
theorem photoCompletion_afterDelete_disturbs :
    ¬ CompletionsUndisturbed .letters ([((),.signIn ⟨"u",some "U"⟩),((),.viewDidAppear),
      ((),.saveNewPost ⟨"one","Montréal","May 1",some ⟨some [255]⟩⟩),((),.deliver 0),((),.deliver 0),
      ((),.cellForRowAt 0 0),((),.delete 0),((),.urlDone 0 true)] : List (Event Unit)) := by
  intro undisturbed
  obtain ⟨before,after,reached,taken,stopped⟩ : ∃ before after, runs .letters (World.start : World Unit)
      [((),.signIn ⟨"u",some "U"⟩),((),.viewDidAppear),((),.saveNewPost ⟨"one","Montréal","May 1",some ⟨some [255]⟩⟩),
        ((),.deliver 0),((),.deliver 0),((),.cellForRowAt 0 0),((),.delete 0)] = some before ∧
      runs .letters before [((),.urlDone 0 true)] = some after ∧ (after.device ()).running = false :=
    Runs.run_continues (P := fun _ (after : World Unit) => (after.device ()).running = false) (by decide)
  have running := (undisturbed _ _ [] before after rfl reached (Runs.run_one.symm.trans taken) 0 true rfl).1
  exact absurd (running.symm.trans stopped) (by decide)

end Journey
