import Journey.Convergence
import Journey.Simulation

namespace Journey

variable {D : Type} [DecidableEq D] {platform : Platform} {p next : Program D} {d x : D} {input : Input}

def Action.NeedsUser : Action → Prop
  | .saveNewPost _ | .delete _ | .uploadProfilePhoto _ => True
  | _ => False

-- The inputs that trap, judged before they come. Nothing is said of the session
-- where the screens see to it, of a missing id or of a record that does not read.
def Device.Crashes (d : Device) : Action → Prop
  | .saveNewPost form => form.text ≠ "" ∧ ∃ image, form.image = some image ∧ image.jpeg = none
  | .delete _ => d.table.length ≠ d.posts.length
  | .cellForRowAt row _ => d.posts ≠ [] ∧ ∀ post, d.posts[row]? = some post → post.image = none ∧ d.currentUser = none
  | .urlDone index true => ∃ request, d.urls[index]? = some request ∧ d.posts.length ≤ request.item
  | .uploadProfilePhoto image => image.jpeg = none
  | _ => False

def App.Crashes (a : App) : Act → Prop
  | .signInAndRetrieveDataDone _ (some user) => user.email = none
  | act => act.Unwraps ∧ act ≠ .viewDidAppear ∧ a.displayName = none

def Screen.Crashes (screen : Screen) (a : App) : Input → Prop
  | .act act => a.Crashes act
  | .darkModeSwitcher _ => a.displayName = none
  | .draft _ event => event.traps = true
  | .saveNewPost => ∃ draft, screen.drafts.getLast? = some draft ∧ a.device.Crashes (.saveNewPost draft.form)
  | .action action => a.device.Crashes action
  | .launch _ | .openNewPost _ _ => False

def Program.Crashes (p : Program D) (d : D) (input : Input) : Prop :=
  ∃ screen, p.screen d = some screen ∧ screen.Crashes (screen.app (p.world.device d) p.accounts) input

section

variable {auto : AutoId} {server : Server} {dev : Device} {action : Action} {reaction : Reaction}

theorem Device.Held.named (sound : server.Sound auto) (held : dev.Held server.log) {post : Post}
    (listed : post ∈ dev.posts) : post.id ≠ none := by
  obtain ⟨uid,belongs⟩ := held.posts post listed
  obtain ⟨n,_,isKey⟩ := belongs.drawn sound
  simp [isKey]

theorem Reacts.crash (rule : Reacts auto server dev action reaction) (sound : server.Sound auto)
    (held : dev.Held server.log) (fed : ∀ o ∈ dev.observers, o.Fed server)
    (signed : action.NeedsUser → dev.currentUser ≠ none) : reaction.device = none ↔ dev.Crashes action := by
  cases rule with
  | refused incomplete =>
      refine iff_of_false (Option.some_ne_none _) fun crash => ?_
      obtain ⟨text,image,photo,_⟩ := crash
      rcases incomplete with blank | missing
      · exact text blank
      · cases photo.symm.trans missing
  | saveTrap _ _ nobody => exact absurd nobody (signed trivial)
  | @save form user image data text photo _ encoded =>
      refine iff_of_false (Option.some_ne_none _) fun crash => ?_
      obtain ⟨_,other,same,unencoded⟩ := crash
      cases photo.symm.trans same
      cases encoded.symm.trans unencoded
  | saveUnencoded text photo _ unencoded => exact iff_of_true rfl ⟨text,_,photo,unencoded⟩
  | deliverTrap waiting mistyped =>
      obtain ⟨kept,lists⟩ := (fed _ (List.mem_of_getElem? waiting)).lists _ List.mem_cons_self
      cases mistyped.symm.trans (lists.reads sound)
  | delete _ _ _ _ rows => exact iff_of_false (Option.some_ne_none _) fun differ => differ rows
  | deleteRaise _ _ _ _ rows => exact iff_of_true rfl rows
  | @deleteTrap row inside missing =>
      refine iff_of_true rfl ?_
      rcases missing with nobody | lost
      · exact absurd nobody (signed trivial)
      · intro rows
        have within : row < dev.posts.length := rows ▸ inside
        have found : dev.posts[row]? = some dev.posts[row] := List.getElem?_eq_getElem within
        rw [found,Option.bind_some] at lost
        exact held.named sound (List.mem_of_getElem? found) lost
  | cellEmpty _ empty => exact iff_of_false (Option.some_ne_none _) fun crash => crash.1 empty
  | cellImage _ found photo =>
      refine iff_of_false (Option.some_ne_none _) fun crash => ?_
      cases photo.symm.trans (crash.2 _ found).1
  | cellRequest _ found _ here _ =>
      refine iff_of_false (Option.some_ne_none _) fun crash => ?_
      cases here.symm.trans (crash.2 _ found).2
  | cellTrap _ nonempty lost =>
      refine iff_of_true rfl ⟨nonempty,fun post found => ?_⟩
      obtain ⟨photo,nobody | unnamed⟩ := lost post found
      · exact ⟨photo,nobody⟩
      · exact absurd unnamed (held.named sound (List.mem_of_getElem? found))
  | @urlFound index request pending inside =>
      refine iff_of_false (Option.some_ne_none _) fun crash => ?_
      obtain ⟨other,waiting,past⟩ := crash
      cases pending.symm.trans waiting
      exact Nat.not_lt.mpr past inside
  | urlTrap pending past => exact iff_of_true rfl ⟨_,pending,past⟩
  | profilePhoto encoded _ =>
      refine iff_of_false (Option.some_ne_none _) fun unencoded => ?_
      cases encoded.symm.trans unencoded
  | profilePhotoTrap lost => exact iff_of_true rfl (lost.resolve_right (signed trivial))
  | _ => exact iff_of_false (Option.some_ne_none _) id

theorem Reacts.alive (rule : Reacts auto server dev action reaction) (running : dev.running = true) :
    (dev.after reaction.device).running = true ↔ reaction.device ≠ none := by
  cases rule with
  | appearNamed | delete => simpa [Device.after] using running
  | saveTrap | saveUnencoded | deliverTrap | deleteRaise | deleteTrap | cellTrap | urlTrap | profilePhotoTrap =>
      simp [Device.after]
  | _ => exact iff_of_true running (Option.some_ne_none _)

end

theorem crashes_name {a : App} {act : Act} (other : ∀ index user, act ≠ .signInAndRetrieveDataDone index (some user)) :
    a.Crashes act ↔ act.Unwraps ∧ act ≠ .viewDidAppear ∧ a.displayName = none := by
  unfold App.Crashes
  split
  · exact absurd rfl (other _ _)
  · exact Iff.rfl

theorem advance_crash {a b : App} {act : Act} (rule : Advances a act b) (running : a.device.running = true) :
    b.device.running = true ↔ ¬ a.Crashes act := by
  have quiet {act : Act} (calm : act.Unwraps → act = .viewDidAppear) (other : ∀ index user,
      act ≠ .signInAndRetrieveDataDone index (some user)) : ¬ a.Crashes act := by
    rw [crashes_name other]
    exact fun crash => crash.2.1 (calm crash.1)
  cases rule with
  | appearNamed => exact iff_of_true (by simpa using running) (quiet (fun _ => rfl) (by simp))
  | appearOut | appearUnnamed => exact iff_of_true running (quiet (fun _ => rfl) (by simp))
  | @settings act name opens given =>
      have other : ∀ index user, act ≠ .signInAndRetrieveDataDone index (some user) := by
        intro index user same
        subst same
        simp [View.Opens] at opens
      rw [crashes_name other,given]
      simp [running]
  | disconnect _ given =>
      rw [crashes_name (by simp),given]
      simp [running]
  | @unwrapTrap act shown unnamed =>
      obtain ⟨_,_,unwraps,late⟩ := shown_unwraps shown
      have other : ∀ index user, act ≠ .signInAndRetrieveDataDone index (some user) := by
        intro index user same
        subst same
        exact unwraps
      exact iff_of_false Bool.noConfusion (not_not.mpr ((crashes_name other).mpr ⟨unwraps,late,unnamed⟩))
  | @credential index user _ reachable =>
      obtain ⟨session,opened⟩ := opened_device (a := a.dequeue index) user
      exact iff_of_true (by rw [opened]; exact running) reachable
  | credentialTrap _ unreachable => exact iff_of_false Bool.noConfusion (not_not.mpr unreachable)
  | move moved =>
      refine iff_of_true running (quiet (fun unwraps => absurd unwraps (move_unwraps moved)) fun index user same => ?_)
      subst same
      simp [View.move] at moved
  | commitName _ leaves => rcases leaves with rfl | rfl <;> exact iff_of_true running (quiet False.elim (by simp))
  | _ => exact iff_of_true running (quiet False.elim (by simp))

def Program.Entered (p : Program D) : Prop :=
  ∀ x screen, p.screen x = some screen → (screen.app (p.world.device x) p.accounts).Entered

theorem starts_keeps {screen shown : Screen} {action : Action} (starts : input.Starts screen shown action) :
    action.KeepsSession := by
  cases starts with
  | saveNewPost => trivial
  | action offered =>
      cases action <;> first | trivial | (cases shown : screen.view <;> simp [View.offers,shown] at offered)

theorem starts_view {screen shown : Screen} {action : Action} (starts : input.Starts screen shown action) :
    shown.view = screen.view ∨ shown.view = .appearing := by
  cases starts with
  | saveNewPost =>
      unfold Screen.saved
      split
      · exact .inr rfl
      · exact .inl rfl
  | action => exact .inl rfl

theorem starts_signed {screen shown : Screen} {action : Action} {a : App} (starts : input.Starts screen shown action)
    (same : a.view = screen.view) (entered : a.Entered) (needs : action.NeedsUser) : a.device.currentUser ≠ none := by
  have open_ : screen.view ≠ .appearing ∧ screen.view.flow = none := by
    cases starts with
    | saveNewPost here => rw [here]; exact ⟨View.noConfusion,rfl⟩
    | action offered =>
        cases action with
        | delete row | uploadProfilePhoto image =>
            cases here : screen.view <;> simp [View.offers,View.flow,here] at offered ⊢
        | saveNewPost form => cases here : screen.view <;> simp [View.offers,here] at offered
        | _ => cases needs
  exact entered (same ▸ open_.1) (same ▸ open_.2)

theorem uid_none (d : Device) : d.uid = none ↔ d.currentUser = none := Option.map_eq_none_iff

theorem commit_entered {screen : Screen} {reaction : Reaction} {accounts : String → Option (Option String)}
    (entered : p.Entered) (own : (screen.app ((p.world.device d).after reaction.device) accounts).Entered) :
    Program.Entered ⟨p.world.commit d reaction,accounts,Function.update p.screen d (some screen)⟩ := by
  intro x shown here
  by_cases same : x = d
  · subst same
    have there : Function.update p.screen x (some screen) x = some shown := here
    rw [Function.update_self,Option.some.injEq] at there
    subst there
    intro open_ closed
    have signed := own open_ closed
    exact (commit_currentUser p.world x reaction).symm ▸ signed
  · have there : Function.update p.screen d (some screen) x = some shown := here
    rw [Function.update_of_ne same] at there
    intro open_ closed
    have user := congrArg Device.currentUser (commit_other p.world reaction same)
    exact user ▸ entered x shown there open_ closed

theorem steps_entered (rule : Steps platform p d input next) (entered : p.Entered) : next.Entered := by
  cases rule with
  | launch => exact commit_entered entered fun due => absurd rfl due
  | act here _ asks acted =>
      refine commit_entered entered (advance_entered acted ?_)
      have before := entered d _ here
      cases asks <;> exact before
  | @react _ screen shown action reaction here _ starts reacts =>
      refine commit_entered entered fun open_ closed => ?_
      have kept := reacts.session (starts_keeps starts)
      rcases starts_view starts with same | due
      · have before := entered d screen here (fun due => open_ (same.trans due))
          ((congrArg View.flow same).symm.trans closed)
        exact fun nobody => before ((uid_none _).mp (kept.symm.trans ((uid_none _).mpr nobody)))
      · exact absurd due open_
  | @edit screen index event draft after here =>
      have still : Program.Entered ⟨p.world.commit d ⟨none,some (p.world.device d)⟩,p.accounts,
          Function.update p.screen d (some {screen with drafts := screen.drafts.set index after})⟩ :=
        commit_entered entered (entered d screen here)
      rw [commit_nothing] at still
      exact still
  | @editTrap screen index event draft here =>
      have still : Program.Entered ⟨p.world.commit d ⟨none,none⟩,p.accounts,
          Function.update p.screen d (some screen)⟩ := commit_entered entered (entered d screen here)
      rw [← here,Function.update_eq_self] at still
      exact still

theorem program_entered {inputs : List (D × Input)} (ran : programRun platform .start inputs = some p) : p.Entered :=
  Runs.run_invariant (I := Program.Entered) (fun _ _ here => by cases here)
    (fun _ _ _ entered taken => steps_entered (program_steps taken) entered) ran

omit [DecidableEq D] in
theorem crashes_here {screen : Screen} (here : p.screen d = some screen) :
    p.Crashes d input ↔ screen.Crashes (screen.app (p.world.device d) p.accounts) input := by
  simp [Program.Crashes,here]

theorem asks_crash {screen shown : Screen} {act : Act} {dev : Device} {accounts : String → Option (Option String)}
    (asks : input.Asks platform screen shown act) :
    screen.Crashes (screen.app dev accounts) input ↔ (shown.app dev accounts).Crashes act := by
  cases asks with
  | act => exact Iff.rfl
  | darkModeSwitcher =>
      rw [crashes_name (by simp)]
      simp [Screen.Crashes,Act.Unwraps,App.displayName,Screen.app]
  | openNewPost =>
      rw [crashes_name (by simp)]
      simp [Screen.Crashes,Act.Unwraps]

theorem starts_crash {screen shown : Screen} {action : Action} {a : App} (starts : input.Starts screen shown action) :
    screen.Crashes a input ↔ a.device.Crashes action := by
  cases starts with
  | saveNewPost _ last => simp [Screen.Crashes,last]
  | action => exact Iff.rfl

theorem steps_crash (rule : Steps platform p d input next) (running : (p.world.device d).running = true)
    (sane : p.Sane platform.auto d) (entered : p.Entered) :
    (next.world.device d).running = true ↔ ¬ p.Crashes d input := by
  cases rule with
  | launch fresh =>
      refine iff_of_true ?_ fun crash => ?_
      · simp [Program.launch,Program.commit,Device.after,App.launch,Device.launched]
      · obtain ⟨screen,here,_⟩ := crash
        cases fresh.symm.trans here
  | act here _ asks acted =>
      rw [crashes_here here,asks_crash asks,← advance_crash acted running]
      simp [Program.commit,Device.after]
  | react here _ starts reacts =>
      have crash := reacts.crash sane.sound sane.held sane.fed (starts_signed starts rfl (entered d _ here))
      rw [crashes_here here,starts_crash starts]
      refine Iff.trans ?_ (not_congr crash)
      simpa [Program.show] using reacts.alive running
  | edit here _ _ reacts =>
      rw [crashes_here here]
      exact iff_of_true running ((not_congr (draft_traps reacts)).mp (Option.some_ne_none _))
  | editTrap here _ _ reacts =>
      rw [crashes_here here]
      refine iff_of_false ?_ (not_not.mpr ((draft_traps reacts).mp rfl))
      simp [World.settle,Device.after]

theorem steps_other (rule : Steps platform p d input next) (other : x ≠ d) :
    (next.world.device x).local = (p.world.device x).local := by
  cases rule with
  | @launch session => exact commit_other p.world ⟨none,some (App.launch p.accounts session).device⟩ other
  | act => exact commit_other p.world _ other
  | react => exact commit_other p.world _ other
  | edit => rfl
  | editTrap => simp [World.settle,Function.update_of_ne other]

theorem crash_exact (d : D) {inputs : List (D × Input)} (ran : programRun platform .start inputs = some p) :
    Runs.Always (Program.step platform) .start inputs (fun _ p => (p.world.device d).running = true) ↔
      Runs.Guarded (Program.step platform) .start inputs fun _ p event => event.1 = d → ¬ p.Crashes d event.2 := by
  refine Runs.always_iff_guarded rfl ?_ ran
  intro past p event next reached running taken
  obtain ⟨y,input⟩ := event
  have rule := program_steps taken
  by_cases same : y = d
  · subst same
    rw [steps_crash rule running (run_sane reached running) (program_entered reached)]
    simp
  · have still := congrArg Device.running (steps_other rule (Ne.symm same))
    simp only [local_running] at still
    exact iff_of_true (still.trans running) fun own => absurd own same

-- A post whose photo arrives after its record was read is listed twice until the
-- next reload; the swipe that comes first raises.
theorem crash_exact_swipe :
    let inputs : List (Unit × Input) := [.launch none,.act .viewDidAppear,.act .showLogin,
      .act (.submitInformations "u@x" "secret"),.act (.signInDone 0 none),.act (.createUserDone 0 (some "u")),
      .act .viewDidAppear,.act (.commitDone 0 true),.act .editLater,.openNewPost "noon" false,
      .draft 0 (.shouldChangeText ⟨⟨0,0⟩,['a']⟩),.saveNewPost,.act .viewDidAppear,.action (.deliver 0),
      .action (.uploadDone 0 true)].map ((),·)
    ¬ Runs.Always (Program.step phone) .start (inputs ++ [((),.action (.delete 0))])
      fun _ p => (p.world.device ()).running = true := by
  intro inputs
  obtain ⟨final,ran⟩ := Option.isSome_iff_exists.mp
    (show (programRun phone .start (inputs ++ [((),.action (.delete 0))])).isSome = true by decide)
  rw [crash_exact () ran]
  intro guarded
  obtain ⟨p,reached,shown,differ⟩ : ∃ p, programRun phone .start inputs = some p ∧ (p.screen ()).isSome = true ∧
      (p.world.device ()).table.length ≠ (p.world.device ()).posts.length := Runs.run_reaches (by decide)
  obtain ⟨screen,here⟩ := Option.isSome_iff_exists.mp shown
  exact guarded inputs ((),.action (.delete 0)) [] p rfl reached rfl ⟨screen,here,differ⟩

end Journey
