import Journey.Session

namespace Journey

variable {a b : App} {act : Act} {uid : String}

def Act.Unwraps : Act → Prop
  | .viewDidAppear | .openSettings | .editNowCompletion | .settingsWillAppear | .disconnect => True
  | _ => False

def App.HasName (a : App) (uid : String) : Prop := ∃ name, a.accounts uid = some (some name)

-- A change of the profile of the account has succeeded, or Facebook has brought
-- a name with the first sign-in to it.
def GivesName (uid : String) (a : App) (act : Act) : Prop :=
  (∃ index name, act = .commitDone index true ∧ a.commits[index]? = some ⟨uid,name⟩) ∨
    ∃ index name email, act = .signInAndRetrieveDataDone index (some ⟨uid,some name,email⟩) ∧ a.accounts uid = none

def App.Truthful (a : App) : Prop :=
  ∀ user, a.device.currentUser = some user → a.accounts user.uid = some user.displayName

def App.Entered (a : App) : Prop := a.view ≠ .appearing → a.view.flow = none → a.device.currentUser ≠ none

theorem opened_accounts (user : AuthUser) : (a.opened user).accounts = if (a.accounts user.uid).isSome then a.accounts
    else Function.update a.accounts user.uid (some user.displayName) := by
  unfold App.opened
  cases found : a.accounts user.uid <;> simp [App.signedIn,App.registered]

theorem opened_hasName {user : AuthUser} : (a.opened user).HasName uid ↔
    a.HasName uid ∨ uid = user.uid ∧ a.accounts uid = none ∧ user.displayName ≠ none := by
  rw [App.HasName,opened_accounts]
  by_cases same : uid = user.uid
  · subst same
    cases found : a.accounts user.uid with
    | none => simp [App.HasName,found,Option.ne_none_iff_exists']
    | some displayName => simp [App.HasName,found]
  · split <;> simp [App.HasName,same]

theorem renamed_hasName {change : ProfileChange} :
    (a.renamed change).HasName uid ↔ a.HasName uid ∨ uid = change.uid := by
  by_cases same : uid = change.uid
  · subst same
    simp [App.HasName,App.renamed]
  · simp [App.HasName,App.renamed,same]

theorem name_new (rule : Advances a act b) (named : b.HasName uid) : a.HasName uid ∨ GivesName uid a act := by
  cases rule with
  | @credential index user pending _ | @credentialTrap index user pending _ =>
      rcases opened_hasName.mp named with old | ⟨rfl,fresh,given⟩
      · exact .inl old
      · obtain ⟨name,given⟩ := Option.ne_none_iff_exists'.mp given
        exact .inr (.inr ⟨index,name,user.email,by rw [← given],fresh⟩)
  | @createUser index flow email password account pending fresh =>
      by_cases same : uid = account
      · subst same
        simp [App.HasName,createUserClosure,App.dismiss,App.signedIn,App.registered] at named
      · refine .inl ?_
        simpa [App.HasName,createUserClosure,App.dismiss,App.signedIn,App.registered,App.dequeue,same] using named
  | @commit index change pending =>
      rcases renamed_hasName.mp named with old | rfl
      · exact .inl old
      · exact .inr (.inl ⟨index,change.displayName,rfl,pending⟩)
  | _ => exact .inl named

theorem name_kept (rule : Advances a act b) (named : a.HasName uid) : b.HasName uid := by
  cases rule with
  | credential | credentialTrap => exact opened_hasName.mpr (.inl named)
  | @createUser index flow email password account pending fresh =>
      obtain ⟨name,named⟩ := named
      have other : uid ≠ account := by
        intro same
        subst same
        cases fresh.symm.trans named
      exact ⟨name,by simpa [createUserClosure,App.dismiss,App.signedIn,App.registered,App.dequeue,other] using named⟩
  | commit => exact renamed_hasName.mpr (.inl named)
  | _ => exact named

theorem name_given (acted : attempt a act = some b) (gives : GivesName uid a act) : b.HasName uid := by
  rcases gives with ⟨index,name,rfl,pending⟩ | ⟨index,name,email,rfl,fresh⟩
  · obtain rfl : App.renamed {a with commits := a.commits.eraseIdx index} ⟨uid,name⟩ = b := by
      simpa [attempt,pending] using acted
    exact renamed_hasName.mpr (.inr rfl)
  · have rule := attempt_sound acted
    cases rule with
    | credential | credentialTrap => exact opened_hasName.mpr (.inr ⟨rfl,fresh,by simp⟩)
    | move moved => simp [View.move] at moved
    | settings opens => simp [View.Opens] at opens
    | unwrapTrap shown => simp [View.Opens] at shown
    | commitName _ leaves => simp at leaves

theorem opened_truthful (a : App) (user : AuthUser) : (a.opened user).Truthful := by
  unfold App.opened
  cases found : a.accounts user.uid with
  | some displayName => simp [App.Truthful,App.signedIn,found]
  | none => simp [App.Truthful,App.signedIn,App.registered]

theorem advance_truthful (rule : Advances a act b) (truthful : a.Truthful) : b.Truthful := by
  cases rule with
  | appearOut _ nobody => simp [App.Truthful,Device.cleared,nobody]
  | appearNamed => simpa [App.Truthful] using truthful
  | loggedOut => simp [App.Truthful]
  | credential | credentialTrap => exact opened_truthful _ _
  | signIn _ found => simpa [App.Truthful,App.dismiss,App.signedIn,App.dequeue] using found
  | createUser => simp [App.Truthful,createUserClosure,App.dismiss,App.signedIn,App.registered]
  | @commit index change pending =>
      intro user signed
      obtain ⟨before,was,rfl⟩ := Option.map_eq_some_iff.mp signed
      have name := truthful before was
      rw [renamed_uid]
      by_cases same : before.uid = change.uid
      · simp [App.renamed,User.renamed,same]
      · simpa [App.renamed,User.renamed,same] using name
  | _ => exact truthful

theorem run_truthful {accounts : String → Option (Option String)} {session : Option String} {acts : List Act}
    {a : App} (ran : sessionRun (App.launch accounts session) acts = some a) : a.Truthful := by
  refine Runs.run_invariant ?_ (fun _ _ _ truthful taken => advance_truthful (advance_iff.mp taken).2 truthful) ran
  intro user signed
  obtain ⟨uid,_,opened⟩ := Option.bind_eq_some_iff.mp signed
  obtain ⟨displayName,found,rfl⟩ := Option.map_eq_some_iff.mp opened
  exact found

theorem move_entered {view : View} (moved : a.view.move act = some view) (entered : a.Entered) :
    App.Entered {a with view} := by
  intro shown open_
  obtain ⟨before,due | same⟩ := move_flow moved
  · exact absurd due shown
  · exact entered before (same ▸ open_)

theorem advance_entered (rule : Advances a act b) (entered : a.Entered) : b.Entered := by
  cases rule with
  | appearOut | showLogin => exact fun _ closed => by simp [View.flow] at closed
  | appearUnnamed _ signed => exact fun _ _ => by simp [signed]
  | appearNamed _ signed => exact fun _ _ => by simp [signed]
  | move moved => exact move_entered moved entered
  | settings _ named => exact fun _ _ => displayName_signed named
  | disconnect _ named => exact fun _ _ => displayName_signed named
  | loggedOut => exact fun shown _ => absurd rfl shown
  | logOutFailed due => exact fun _ _ => entered (by simp [due]) (by rw [due]; rfl)
  | @logIn index flow pending =>
      intro shown closed
      rcases dismiss_cases (useFirebaseLogin (a.dequeue index)) (.introductionVC flow) with ⟨_,due⟩ | ⟨_,same⟩
      · exact absurd due shown
      · rw [same] at shown closed
        exact entered shown closed
  | credential | credentialTrap => exact fun _ _ => opened_signed _
  | signIn => exact fun _ _ => by simp [App.dismiss,App.signedIn]
  | createUser => exact fun _ _ => by simp [createUserClosure,App.dismiss,App.signedIn]
  | commit => exact fun shown closed => by simpa [App.renamed] using entered shown closed
  | _ => exact entered

theorem run_entered {accounts : String → Option (Option String)} {session : Option String} {acts : List Act}
    {a : App} (ran : sessionRun (App.launch accounts session) acts = some a) : a.Entered :=
  Runs.run_invariant (I := App.Entered) (fun shown => absurd rfl shown)
    (fun _ _ _ entered taken => advance_entered (advance_iff.mp taken).2 entered) ran

def Named (origin : App) (past : List Act) (uid : String) : Prop :=
  origin.HasName uid ∨ Runs.Occurs advance origin past (GivesName uid)

theorem named_exact {origin : App} {past : List Act} (reached : sessionRun origin past = some a) :
    a.HasName uid ↔ Named origin past uid := by
  refine Runs.run_induction (I := fun past a => a.HasName uid ↔ Named origin past uid) ?_ ?_ reached
  · exact ⟨Or.inl,fun named => named.resolve_right Runs.occurs_nil⟩
  · intro past a act b reached ih taken
    rw [Named,Runs.occurs_snoc reached,← or_assoc,← Named,← ih]
    obtain ⟨running,rule⟩ := advance_iff.mp taken
    constructor
    · exact name_new rule
    · intro either
      rcases either with old | gives
      · exact name_kept rule old
      · exact name_given (attempt_complete rule) gives

theorem move_unwraps {view next : View} (moved : view.move act = some next) : ¬ act.Unwraps := by
  unfold View.move at moved
  split at moved
  all_goals first | exact id | cases moved

theorem shown_unwraps {view : View} (shown : view.Opens act ∨ view = .settings ∧ act = .disconnect) :
    view ≠ .appearing ∧ view.flow = none ∧ act.Unwraps ∧ act ≠ .viewDidAppear := by
  rcases shown with (⟨rfl,rfl⟩ | ⟨rfl,rfl⟩ | ⟨rfl,rfl⟩) | ⟨rfl,rfl⟩
  all_goals exact ⟨View.noConfusion,rfl,trivial,Act.noConfusion⟩

-- One unwrapping. The header is updated past a test of its own, the settings ask
-- for the name without one.
theorem unwrap_exact (taken : advance a act = some b) (entered : a.Entered) (truthful : a.Truthful) :
    (act.Unwraps → b.device.running = true) ↔ (act.Unwraps → act ≠ .viewDidAppear →
      ∀ user, a.device.currentUser = some user → a.HasName user.uid) := by
  obtain ⟨running,rule⟩ := advance_iff.mp taken
  have named {name : String} (named : a.displayName = some name) (user : User)
      (signed : a.device.currentUser = some user) : a.HasName user.uid := by
    rw [App.displayName,signed] at named
    exact ⟨name,(truthful user signed).trans (congrArg some named)⟩
  cases rule with
  | appearOut => simp [Device.cleared,running]
  | appearUnnamed => simp [running]
  | appearNamed => simp [running]
  | settings _ given => exact iff_of_true (fun _ => running) fun _ _ => named given
  | disconnect _ given => exact iff_of_true (fun _ => running) fun _ _ => named given
  | unwrapTrap shown unnamed =>
      obtain ⟨open_,closed,unwraps,other⟩ := shown_unwraps shown
      obtain ⟨user,signed⟩ := Option.ne_none_iff_exists'.mp (entered open_ closed)
      refine iff_of_false (fun runs => Bool.noConfusion (runs unwraps)) fun guard => ?_
      obtain ⟨name,has⟩ := guard unwraps other user signed
      rw [App.displayName,signed,Option.bind_some] at unnamed
      rw [truthful user signed,unnamed] at has
      cases has
  | move moved =>
      have quiet := move_unwraps moved
      exact iff_of_true (fun unwraps => absurd unwraps quiet) fun unwraps => absurd unwraps quiet
  | commitName _ leaves => rcases leaves with rfl | rfl <;> simp [Act.Unwraps]
  | _ => simp [Act.Unwraps]

def NeverMissing (origin : App) (acts : List Act) : Prop :=
  Runs.Throughout advance origin acts fun _ _ act after => act.Unwraps → after.device.running = true

def NamedFirst (origin : App) (acts : List Act) : Prop :=
  Runs.Guarded advance origin acts fun past a act => act.Unwraps → act ≠ .viewDidAppear →
    ∀ user, a.device.currentUser = some user → Named origin past user.uid

theorem displayName_exact {accounts : String → Option (Option String)} {session : Option String} {acts : List Act}
    {final : App} (ran : sessionRun (App.launch accounts session) acts = some final) :
    NeverMissing (App.launch accounts session) acts ↔ NamedFirst (App.launch accounts session) acts := by
  refine Runs.throughout_iff_guarded ?_ ran
  intro past a act b reached taken
  simp only [← named_exact reached]
  exact unwrap_exact taken (run_entered reached) (run_truthful reached)

theorem displayName_afterCommit :
    let origin := App.launch (fun _ => none) none
    let acts : List Act := [.viewDidAppear,.showLogin,.submitInformations "u@x" "secret",.signInDone 0 none,
      .createUserDone 0 (some "u"),.viewDidAppear,.commitDone 0 true,.editNow,.editNowCompletion,.disconnect]
    NeverMissing origin acts ↔ NamedFirst origin acts := by
  intro origin acts
  obtain ⟨final,ran⟩ := Option.isSome_iff_exists.mp (show (sessionRun origin acts).isSome = true by decide)
  exact displayName_exact ran

-- Edit Now leads to the settings while the default name of a new account is still
-- being committed.
theorem displayName_editNow_traps : ¬ NeverMissing (App.launch (fun _ => none) none) [.viewDidAppear,.showLogin,
    .submitInformations "u@x" "secret",.signInDone 0 none,.createUserDone 0 (some "u"),.viewDidAppear,.editNow,
    .editNowCompletion] := by
  intro never
  obtain ⟨before,after,reached,taken,trapped⟩ : ∃ before after, sessionRun (App.launch (fun _ => none) none)
      [.viewDidAppear,.showLogin,.submitInformations "u@x" "secret",.signInDone 0 none,.createUserDone 0 (some "u"),
        .viewDidAppear,.editNow] = some before ∧ sessionRun before [.editNowCompletion] = some after ∧
      after.device.running = false :=
    Runs.run_continues (P := fun _ (after : App) => after.device.running = false) (by decide)
  have runs := never _ .editNowCompletion [] before after rfl reached (Runs.run_one.symm.trans taken) trivial
  exact absurd (runs.symm.trans trapped) (by decide)

end Journey
