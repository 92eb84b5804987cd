import Journey.Program

namespace Journey

variable {D : Type} [DecidableEq D] {platform : Platform} {p next : Program D} {w v : World D} {d x : D}

def Device.stopped (d : Device) : Device := {d with running := false}

structure World.Halts (w v : World D) : Prop where
  server : w.server = v.server
  device : ∀ x, w.device x = v.device x ∨ w.device x = (v.device x).stopped

omit [DecidableEq D] in
theorem World.Halts.alive (halts : w.Halts v) (running : (w.device d).running = true) : w.device d = v.device d := by
  rcases halts.device d with same | stopped
  · exact same
  · rw [stopped] at running
    cases running

theorem after_none (d : Device) : d.after none = d.stopped := rfl

theorem halts_settle (halts : w.Halts v) (alive : w.device d = v.device d) (outcome : Option Device) :
    (w.settle d outcome).Halts (v.settle d outcome) where
  server := halts.server
  device x := by
    by_cases same : x = d
    · subst same
      exact .inl (by simp [World.settle,alive])
    · simpa [World.settle,Function.update_of_ne same] using halts.device x

theorem halts_serve (halts : w.Halts v) (alive : w.device d = v.device d) (request : Request) :
    (w.serve d request).Halts (v.serve d request) where
  server := by rw [serve_server,serve_server,halts.server]
  device x := by
    have sent (uid : String) (snapshot : Snapshot) : (w.device x).receive uid snapshot =
        (v.device x).receive uid snapshot ∨
          (w.device x).receive uid snapshot = ((v.device x).receive uid snapshot).stopped :=
      (halts.device x).imp (fun same => by rw [same]) fun stopped => by rw [stopped]; rfl
    cases request with
    | setValue uid key post => simpa [World.serve,halts.server] using sent uid _
    | removeValue uid key => simpa [World.serve,halts.server] using sent uid _
    | putObject path data => exact halts.device x
    | observe uid =>
        by_cases same : x = d
        · subst same
          exact .inl (by simp [World.serve,alive,halts.server])
        · simpa [World.serve,Function.update_of_ne same] using halts.device x

theorem halts_commit (halts : w.Halts v) (alive : w.device d = v.device d) (reaction : Reaction) :
    (w.commit d reaction).Halts (v.commit d reaction) := by
  have settled := halts_settle halts alive reaction.device
  have same : (w.settle d reaction.device).device d = (v.settle d reaction.device).device d := by
    simp [World.settle,alive]
  unfold World.commit
  cases reaction.request with
  | none => exact settled
  | some request => exact halts_serve settled same request

theorem halts_stop (halts : w.Halts v) : (w.settle d none).Halts v where
  server := halts.server
  device x := by
    by_cases same : x = d
    · subst same
      rcases halts.device x with alive | stopped
      · exact .inr (by simp [World.settle,after_none,alive])
      · exact .inr (by simp [World.settle,after_none,stopped,Device.stopped])
    · simpa [World.settle,Function.update_of_ne same] using halts.device x

theorem settle_stopped (w : World D) (d : D) (device : Device) :
    w.settle d (some device.stopped) = (w.settle d (some device)).settle d none := by
  simp [World.settle,Device.after,Device.stopped]

section

variable {auto : AutoId} {a b : App} {act : Act} {dev : Device}

theorem request_other (quiet : act ≠ .viewDidAppear) (dev : Device) : act.request dev = none := by
  cases act with
  | viewDidAppear => exact absurd rfl quiet
  | _ => rfl

def Obeys (auto : AutoId) (server : Server) (before : Device) (request : Option Request) (after : Device) : Prop :=
  (after = before ∧ request = none) ∨ ∃ action, Reacts auto server before action ⟨request,some after⟩

theorem obeys_signIn (server : Server) (user : User) :
    Obeys auto server dev none {dev with currentUser := some user} := .inr ⟨.signIn user,.signIn⟩

theorem obeys_rename (server : Server) (change : ProfileChange) :
    Obeys auto server a.device none (a.renamed change).device := by
  rcases renamed_device (a := a) change with same | ⟨user,signed,renamed⟩
  · exact .inl ⟨same,rfl⟩
  · exact .inr ⟨.profileChanged change.displayName,renamed ▸ .profileChanged signed⟩

theorem advance_obeys (auto : AutoId) (rule : Advances a act b) (server : Server) :
    ∃ device, Obeys auto server a.device (act.request a.device) device ∧
      (b.device = device ∨ b.device = device.stopped ∧ act.request a.device = none) := by
  cases rule with
  | appearOut _ nobody =>
      refine ⟨_,.inr ⟨.viewDidAppear,?_⟩,.inl rfl⟩
      rw [Act.request,appearance_signedOut nobody]
      exact .appearOut nobody
  | appearUnnamed _ signed unnamed =>
      refine ⟨_,.inr ⟨.viewDidAppear,?_⟩,.inl rfl⟩
      rw [Act.request,appearance_unnamed signed unnamed]
      exact .appearUnnamed signed unnamed
  | appearNamed _ signed named =>
      refine ⟨_,.inr ⟨.viewDidAppear,?_⟩,.inl rfl⟩
      rw [Act.request,appearance_named signed named]
      exact .appearNamed signed named
  | unwrapTrap shown _ =>
      obtain ⟨_,_,_,other⟩ := shown_unwraps shown
      have quiet := request_other other a.device
      exact ⟨a.device,.inl ⟨rfl,quiet⟩,.inr ⟨rfl,quiet⟩⟩
  | loggedOut => exact ⟨_,.inr ⟨.signOut,.signOut⟩,.inl rfl⟩
  | @credential index user =>
      obtain ⟨session,opened⟩ := opened_device (a := a.dequeue index) user
      exact ⟨_,opened ▸ obeys_signIn server session,.inl rfl⟩
  | @credentialTrap index user =>
      obtain ⟨session,opened⟩ := opened_device (a := a.dequeue index) user
      exact ⟨_,opened ▸ obeys_signIn server session,.inr ⟨rfl,rfl⟩⟩
  | signIn => exact ⟨_,obeys_signIn server _,.inl rfl⟩
  | createUser => exact ⟨_,.inr ⟨.register _,.register⟩,.inl rfl⟩
  | @commit index change =>
      exact ⟨_,obeys_rename (a := {a with commits := a.commits.eraseIdx index}) server change,.inl rfl⟩
  | move moved =>
      have other : act ≠ .viewDidAppear := fun appears => move_unwraps moved (appears ▸ trivial)
      exact ⟨a.device,.inl ⟨rfl,request_other other _⟩,.inl rfl⟩
  | settings opens _ =>
      obtain ⟨_,_,_,other⟩ := shown_unwraps (.inl opens)
      exact ⟨a.device,.inl ⟨rfl,request_other other _⟩,.inl rfl⟩
  | commitName _ leaves => rcases leaves with rfl | rfl <;> exact ⟨a.device,.inl ⟨rfl,rfl⟩,.inl rfl⟩
  | _ => exact ⟨a.device,.inl ⟨rfl,rfl⟩,.inl rfl⟩

end

theorem commit_nothing (w : World D) (d : D) : w.commit d ⟨none,some (w.device d)⟩ = w := by
  simp [World.commit,World.settle,Device.after]

theorem obeys_halts {auto : AutoId} {request : Option Request} {device : Device} (halts : w.Halts v)
    (running : (w.device d).running = true) (obeys : Obeys auto w.server (w.device d) request device) :
    ∃ moves u, runs auto v moves = some u ∧ (w.commit d ⟨request,some device⟩).Halts u := by
  rcases obeys with ⟨rfl,rfl⟩ | ⟨action,rule⟩
  · refine ⟨[],v,rfl,?_⟩
    rw [commit_nothing]
    exact halts
  · have alive := halts.alive running
    refine ⟨[(d,action)],v.commit d ⟨request,some device⟩,Runs.run_one.trans ?_,halts_commit halts alive _⟩
    rw [halts.server,alive] at rule
    exact step_iff.mpr ⟨alive ▸ running,_,rule,rfl⟩

omit [DecidableEq D] in
theorem device_local {c e : Device} (same : c.local = e.local) (observers : c.observers = e.observers) : c = e := by
  have whole (y : Device) : y = {y.local with observers := y.observers} := rfl
  rw [whole c,whole e,same,observers]

theorem commit_launched (w : World D) (reaction : Reaction) (fresh : w.device x = .launched) (other : x ≠ d) :
    (w.commit d reaction).device x = .launched := by
  have quiet : (w.device x).observers = [] := by rw [fresh]; rfl
  refine device_local ((commit_other w reaction other).trans (congrArg Device.local fresh)) ?_
  have settled : ((w.settle d reaction.device).device x).observers = [] := by
    rw [settle_observers,if_neg other,quiet]
  unfold World.commit
  cases reaction.request with
  | none => exact settled
  | some request =>
      rw [serve_observers,settled]
      cases request <;> simp [Request.sends,other,Device.launched]

structure Program.Follows (p : Program D) (v : World D) : Prop where
  halts : p.world.Halts v
  fresh : ∀ x, p.screen x = none → p.world.device x = .launched

theorem commit_fresh {screen : Screen} (reaction : Reaction)
    (fresh : ∀ x, p.screen x = none → p.world.device x = .launched) (x : D)
    (unseen : Function.update p.screen d (some screen) x = none) : (p.world.commit d reaction).device x = .launched := by
  by_cases same : x = d
  · subst same
    simp at unseen
  · rw [Function.update_of_ne same] at unseen
    exact commit_launched p.world reaction (fresh x unseen) same

theorem launch_obeys (auto : AutoId) (server : Server) (accounts : String → Option (Option String))
    (session : Option String) : Obeys auto server .launched none (App.launch accounts session).device := by
  cases signed : session.bind fun uid => (accounts uid).map (User.mk uid) with
  | none => exact .inl ⟨by rw [App.launch,signed]; rfl,rfl⟩
  | some user => exact .inr ⟨.signIn user,by rw [App.launch,signed]; exact .signIn⟩

theorem steps_follow {input : Input} (follows : p.Follows v) (rule : Steps platform p d input next) :
    ∃ moves u, runs platform.auto v moves = some u ∧ next.Follows u := by
  cases rule with
  | @launch session fresh =>
      have new := follows.fresh d fresh
      obtain ⟨moves,u,ran,halts⟩ := obeys_halts follows.halts (by rw [new]; rfl)
        (new ▸ launch_obeys platform.auto p.world.server p.accounts session)
      exact ⟨moves,u,ran,halts,commit_fresh ⟨none,some (App.launch p.accounts session).device⟩ follows.fresh⟩
  | @act _ screen shown act a here running asks acted =>
      obtain ⟨device,obeys,either⟩ := advance_obeys platform.auto acted p.world.server
      obtain ⟨moves,u,ran,halts⟩ := obeys_halts follows.halts running obeys
      refine ⟨moves,u,ran,?_,commit_fresh _ follows.fresh⟩
      rcases either with same | ⟨stopped,quiet⟩
      · rw [Program.commit,same]
        exact halts
      · have none_asked : act.request (p.world.device d) = none := quiet
        have stops : World.Halts (p.world.commit d ⟨none,some device.stopped⟩) u := by
          have halts : World.Halts (p.world.commit d ⟨none,some device⟩) u := quiet ▸ halts
          change World.Halts (p.world.settle d (some device.stopped)) u
          rw [settle_stopped]
          exact halts_stop halts
        rw [Program.commit,stopped,none_asked]
        exact stops
  | @react _ screen shown action reaction here running starts reacts =>
      have alive := follows.halts.alive running
      refine ⟨[(d,action)],v.commit d reaction,Runs.run_one.trans ?_,halts_commit follows.halts alive _,
        commit_fresh _ follows.fresh⟩
      rw [follows.halts.server,alive] at reacts
      exact step_iff.mpr ⟨alive ▸ running,_,reacts,rfl⟩
  | edit here =>
      refine ⟨[],v,rfl,follows.halts,fun x unseen => ?_⟩
      by_cases same : x = d
      · subst same
        simp [Program.show] at unseen
      · exact follows.fresh x (by simpa [Program.show,Function.update_of_ne same] using unseen)
  | editTrap here =>
      refine ⟨[],v,rfl,halts_stop follows.halts,fun x unseen => ?_⟩
      have other : x ≠ d := by
        intro same
        subst same
        cases here.symm.trans unseen
      simpa [World.settle,Function.update_of_ne other] using follows.fresh x unseen

omit [DecidableEq D] in
theorem start_follows : (Program.start : Program D).Follows .start := ⟨⟨rfl,fun _ => .inl rfl⟩,fun _ _ => rfl⟩

theorem run_follows {inputs : List (D × Input)} (ran : programRun platform .start inputs = some p) :
    ∃ moves v, runs platform.auto .start moves = some v ∧ p.Follows v :=
  Runs.run_simulates start_follows
    (fun _ _ _ _ _ _ follows taken => steps_follow follows (program_steps taken)) ran

structure Program.Sane (auto : AutoId) (p : Program D) (d : D) : Prop where
  sound : p.world.server.Sound auto
  held : (p.world.device d).Held p.world.server.log
  fed : ∀ o ∈ (p.world.device d).observers, o.Fed p.world.server

theorem run_sound {inputs : List (D × Input)} (ran : programRun platform .start inputs = some p) :
    p.world.server.Sound platform.auto := by
  obtain ⟨moves,v,reached,follows⟩ := run_follows ran
  exact follows.halts.server ▸ ((Coherent.start platform.auto).runs reached).sound

theorem run_sane {inputs : List (D × Input)} (ran : programRun platform .start inputs = some p)
    (running : (p.world.device d).running = true) : p.Sane platform.auto d := by
  obtain ⟨moves,v,reached,follows⟩ := run_follows ran
  have coherent := (Coherent.start platform.auto).runs reached
  refine ⟨run_sound ran,?_,?_⟩
  · rw [follows.halts.server,follows.halts.alive running]
    exact coherent.held d
  · rw [follows.halts.server,follows.halts.alive running]
    exact coherent.fed d

theorem program_refines {inputs : List (D × Input)} (ran : programRun platform .start inputs = some p) :
    ∃ events w, runs platform.auto .start events = some w ∧ p.world.server = w.server ∧
      ∀ d, p.world.device d = w.device d ∨ p.world.device d = {w.device d with running := false} := by
  obtain ⟨events,w,reached,follows⟩ := run_follows ran
  exact ⟨events,w,reached,follows.halts.server,follows.halts.device⟩

def phone : Platform := ⟨.letters,.unicode breakProperty,⟨some [0]⟩⟩

-- Two processes on one account; the second stops in the settings.
def twoPhones : List (Bool × Input) :=
  [(true,.launch none),(true,.act .viewDidAppear),(true,.act .showLogin),
   (true,.act (.submitInformations "u@x" "secret")),(true,.act (.signInDone 0 none)),
   (true,.act (.createUserDone 0 (some "u"))),(true,.act .viewDidAppear),(false,.launch (some "u")),
   (true,.act (.commitDone 0 true)),(true,.act .editLater),(true,.openNewPost "noon" true),
   (true,.draft 0 (.shouldChangeText ⟨⟨0,0⟩,['a']⟩)),(true,.saveNewPost),(false,.act .viewDidAppear),
   (false,.act .openSettings),(true,.act .viewDidAppear),(true,.action (.uploadDone 0 true))]

theorem program_refines_twoPhones : ∃ p, programRun phone .start twoPhones = some p ∧
    (p.world.device false).running = false ∧ p.world.server.log.length = 2 ∧
      ∃ events w, runs .letters .start events = some w ∧ p.world.server = w.server ∧
        ∀ d, p.world.device d = w.device d ∨ p.world.device d = {w.device d with running := false} := by
  obtain ⟨p,ran,stopped,saved⟩ : ∃ p, programRun phone .start twoPhones = some p ∧
      (p.world.device false).running = false ∧ p.world.server.log.length = 2 := Runs.run_reaches (by decide)
  exact ⟨p,ran,stopped,saved,program_refines ran⟩

end Journey
