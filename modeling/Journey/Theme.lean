import Journey.Crashes
import Journey.Header

namespace Journey

-- What JourneyTVC paints for the dark mode and what for the light one.
inductive ThemeColor where
  | white
  | lightGray
  | darkGray
  | groupTableViewBackground
  deriving DecidableEq, Repr

-- The looks of a cell, none before it is first painted: `textColor` is that of all
-- three texts and `tintColor` that of both images.
structure CellLook where
  backgroundColor : Option ThemeColor
  textColor : Option ThemeColor
  tintColor : Option ThemeColor
  locationPhoto : Option String
  timePhoto : Option String
  deriving DecidableEq, Repr

-- The view of a table view controller is its table view, so that both have one
-- background. A cell is visible from its request until it scrolls off or the table
-- reads its rows anew.
structure Look where
  statsBg : Option ThemeColor
  postCountLabel : Option ThemeColor
  backgroundColor : Option ThemeColor
  separatorColor : Option ThemeColor
  cell : Nat → CellLook
  visible : Nat → Bool

def Look.launched : Look := ⟨none,none,none,none,fun _ => ⟨none,none,none,none,none⟩,fun _ => false⟩

-- The tint of the images is left as it is in the light.
def CellLook.paint (darkMode : Bool) (cell : CellLook) : CellLook :=
  if darkMode then ⟨some .darkGray,some .white,some .white,some "PinWhite",some "ClockWhite"⟩
  else {cell with backgroundColor := some .white,textColor := some .darkGray,locationPhoto := some "Pin",
                  timePhoto := some "Clock"}

def Look.header (darkMode : Bool) (look : Look) : Look :=
  if darkMode then {look with statsBg := some .lightGray,postCountLabel := some .white,
                              backgroundColor := some .darkGray}
  else {look with statsBg := some .groupTableViewBackground,postCountLabel := some .darkGray,
                  backgroundColor := some .white}

def Look.reloadData (look : Look) : Look := {look with visible := fun _ => false}

def Look.filled (darkMode : Bool) (look : Look) : Look :=
  if darkMode then {look with backgroundColor := some .darkGray,separatorColor := some .lightGray}
  else {look with backgroundColor := some .white,separatorColor := some .lightGray}

def Look.emptied (darkMode : Bool) (look : Look) : Look :=
  if darkMode then {look with backgroundColor := some .lightGray,separatorColor := some .lightGray}
  else {look with backgroundColor := some .groupTableViewBackground,separatorColor := some .groupTableViewBackground}

def Look.appear (darkMode : Bool) (d : Device) (look : Look) : Look :=
  let look := look.header darkMode
  match d.currentUser with
  | none => look.reloadData
  | some user =>
    if user.displayName = none then look
    else if d.posts.length > 0 then look.reloadData.filled darkMode else look.emptied darkMode

-- The colours in the callback of fetchData, in tableView(_:commit:forRowAt:), which
-- has one colour for both modes, and in tableView(_:cellForRowAt:).
def Look.act (darkMode : Bool) (d : Device) (look : Look) : Action → Look
  | .deliver index => match d.observers[index]? with
      | some ⟨_,snapshot :: _⟩ => if snapshot.rows.length > 0 then look.reloadData else look
      | _ => look
  | .delete row => if (d.posts.eraseIdx row).length > 0 then look.reloadData
      else {look.reloadData with backgroundColor := some .lightGray}
  | .cellForRowAt _ cell => {look with cell := Function.update look.cell cell ((look.cell cell).paint darkMode),
                                       visible := Function.update look.visible cell true}
  | _ => look

def Look.after (darkMode : Bool) (d : Device) (look : Look) : Input → Look
  | .act .viewDidAppear => look.appear darkMode d
  | .action action => look.act darkMode d action
  | _ => look

def Look.hide (look : Look) (cell : Nat) : Look := {look with visible := Function.update look.visible cell false}

def Look.occupied (look : Look) : Input → Bool
  | .action (.cellForRowAt _ cell) => look.visible cell
  | _ => false

structure Themed (D : Type) where
  program : Program D
  look : D → Look

inductive Sight (D : Type) where
  | input (d : D) (input : Input)
  | didEndDisplaying (d : D) (cell : Nat)
  deriving DecidableEq, Repr

def Themed.start : Themed D := ⟨.start,fun _ => .launched⟩

variable {D : Type} [DecidableEq D]

def Themed.paint (s : Themed D) (d : D) (input : Input) : Look :=
  match s.program.screen d with
  | some screen => (s.look d).after screen.darkMode (s.program.world.device d) input
  | none => s.look d

def Themed.step (platform : Platform) (s : Themed D) : Sight D → Option (Themed D)
  | .input d input =>
      if (s.look d).occupied input then none
      else (s.program.step platform (d,input)).map fun program =>
        ⟨program,Function.update s.look d (s.paint d input)⟩
  | .didEndDisplaying d cell =>
      if (s.look d).visible cell then some {s with look := Function.update s.look d ((s.look d).hide cell)} else none

abbrev themedRun (platform : Platform) : Themed D → List (Sight D) → Option (Themed D) :=
  Runs.run (Themed.step platform)

def View.showsJourney : View → Bool
  | .journey | .welcome => true
  | _ => false

structure Look.Lit (darkMode : Bool) (look : Look) : Prop where
  statsBg : (look.header darkMode).statsBg = look.statsBg
  postCountLabel : (look.header darkMode).postCountLabel = look.postCountLabel
  cells : ∀ cell, look.visible cell = true → (look.cell cell).paint darkMode = look.cell cell

def tableColor (darkMode empty : Bool) : ThemeColor :=
  if empty then if darkMode then .lightGray else .groupTableViewBackground
  else if darkMode then .darkGray else .white

def Look.Backed (darkMode : Bool) (d : Device) (look : Look) : Prop :=
  look.backgroundColor = some (tableColor darkMode d.posts.isEmpty)

structure Look.Rows (d : Device) (look : Look) : Prop where
  table : d.posts = [] → d.table = []
  cells : d.table = [] → ∀ cell, look.visible cell = false

def Themed.Shows (P : Bool → Device → Look → Prop) (s : Themed D) (d : D) : Prop :=
  ∀ screen, s.program.screen d = some screen → (s.program.world.device d).running = true →
    screen.view.showsJourney = true → P screen.darkMode (s.program.world.device d) (s.look d)

def Device.Fills (d : Device) : Action → Prop
  | .deliver index => d.posts = [] ∧ ∃ uid snapshot rest, d.observers[index]? = some ⟨uid,snapshot :: rest⟩ ∧
      snapshot.rows ≠ []
  | .uploadDone index true => d.posts = [] ∧ ∃ path data post, d.uploads[index]? = some ⟨path,data,.post post⟩
  | _ => False

def Device.Empties (d : Device) : Action → Prop
  | .delete _ => d.posts.length = 1
  | _ => False

def Themed.Permits (ok : Screen → Device → Look → Input → Prop) (s : Themed D) (d : D) : Sight D → Prop
  | .input x input => x = d → ¬ s.program.Crashes d input → ∀ screen, s.program.screen d = some screen →
      ok screen (s.program.world.device d) (s.look d) input
  | .didEndDisplaying _ _ => True

structure Decides (P : Bool → Device → Look → Prop) (ok : Screen → Device → Look → Input → Prop) : Prop where
  blind : ∀ {darkMode : Bool} {d e : Device} {look : Look}, d.posts = e.posts → P darkMode d look → P darkMode e look
  hides : ∀ {darkMode : Bool} {d : Device} {look : Look} (cell : Nat), P darkMode d look → P darkMode d (look.hide cell)
  appears : ∀ {screen : Screen} {d : Device} {look : Look}, look.Rows d → d.currentUser ≠ none →
    (P screen.darkMode d (look.appear screen.darkMode d) ↔ ok screen d look (.act .viewDidAppear))
  reacts : ∀ {auto : AutoId} {server : Server} {screen : Screen} {d next : Device} {look : Look} {action : Action}
    {request : Option Request}, Reacts auto server d action ⟨request,some next⟩ → action ≠ .viewDidAppear →
    screen.view.showsJourney = true → P screen.darkMode d look →
    (P screen.darkMode next (look.act screen.darkMode d action) ↔ ok screen d look (.action action))
  signedOut : ∀ {screen : Screen} {d : Device} {look : Look}, d.currentUser = none →
    ok screen d look (.act .viewDidAppear)
  elsewhere : ∀ {screen : Screen} {d : Device} {look : Look} {action : Action}, screen.view.showsJourney = false →
    ok screen d look (.action action)
  otherwise : ∀ {screen : Screen} {d : Device} {look : Look} {input : Input}, input ≠ .act .viewDidAppear →
    (∀ action, input ≠ .action action) → ok screen d look input

section

variable {a b : App} {act : Act} {darkMode : Bool} {d : Device} {look : Look}

theorem greeting_shows (a : App) : a.greeting.showsJourney = true := by unfold App.greeting; split <;> rfl

theorem dismiss_shows {self : Controller} (shows : (a.dismiss self).view.showsJourney = true) :
    a.view.showsJourney = true := by
  rcases dismiss_cases a self with ⟨_,due⟩ | ⟨_,same⟩
  · rw [due] at shows
    cases shows
  · exact same ▸ shows

theorem opened_list (a : App) (user : AuthUser) : (a.opened user).device.posts = a.device.posts ∧
    (a.opened user).device.table = a.device.table := by
  obtain ⟨session,opened⟩ := opened_device (a := a) user
  rw [opened]
  exact ⟨rfl,rfl⟩

theorem advance_list (rule : Advances a act b) (other : act ≠ .viewDidAppear) :
    b.device.posts = a.device.posts ∧ b.device.table = a.device.table := by
  cases rule with
  | appearOut | appearUnnamed | appearNamed => exact absurd rfl other
  | @credential index user => exact opened_list (a.dequeue index) user
  | @credentialTrap index user => exact opened_list (a.dequeue index) user
  | _ => exact ⟨rfl,rfl⟩

theorem move_shows {view next : View} (moved : view.move act = some next) (shows : next.showsJourney = true) :
    view.showsJourney = true := by
  unfold View.move at moved
  split at moved <;> cases moved
  all_goals first | rfl | cases shows

theorem advance_shows (rule : Advances a act b) (other : act ≠ .viewDidAppear)
    (shows : b.view.showsJourney = true) : a.view.showsJourney = true := by
  cases rule with
  | appearOut | appearUnnamed | appearNamed => exact absurd rfl other
  | move moved => exact move_shows moved shows
  | settings | disconnect | loggedOut | logOutFailed | showLogin => cases shows
  | @logIn index flow => exact dismiss_shows (a := useFirebaseLogin (a.dequeue index)) shows
  | credential | credentialTrap => simpa [App.dequeue,App.trap] using shows
  | signIn => exact dismiss_shows (a := (a.dequeue _).signedIn _) shows
  | createUser => exact dismiss_shows shows
  | _ => exact shows

theorem paint_paint (cell : CellLook) : (cell.paint darkMode).paint darkMode = cell.paint darkMode := by
  cases darkMode <;> rfl

theorem header_lit : (look.header darkMode).Lit darkMode ↔
    ∀ cell, look.visible cell = true → (look.cell cell).paint darkMode = look.cell cell := by
  cases darkMode <;> exact ⟨Look.Lit.cells,fun cells => ⟨rfl,rfl,cells⟩⟩

theorem looks_signedOut (nobody : d.currentUser = none) :
    look.appear darkMode d = (look.header darkMode).reloadData := by simp [Look.appear,nobody]

theorem looks_unnamed {user : User} (signed : d.currentUser = some user) (unnamed : user.displayName = none) :
    look.appear darkMode d = look.header darkMode := by simp [Look.appear,signed,unnamed]

theorem looks_named {user : User} {name : String} (signed : d.currentUser = some user)
    (named : user.displayName = some name) : look.appear darkMode d =
      if d.posts = [] then (look.header darkMode).emptied darkMode
      else (look.header darkMode).reloadData.filled darkMode := by
  cases posts : d.posts <;> simp [Look.appear,signed,named,posts]

theorem appear_lit (rows : look.Rows d) : (look.appear darkMode d).Lit darkMode ↔
    ∀ user, d.currentUser = some user → user.displayName = none →
      ∀ cell, look.visible cell = true → (look.cell cell).paint darkMode = look.cell cell := by
  cases signed : d.currentUser with
  | none =>
      rw [looks_signedOut signed]
      exact iff_of_true (by cases darkMode <;> exact ⟨rfl,rfl,fun _ => Bool.noConfusion⟩) nofun
  | some user =>
      cases named : user.displayName with
      | none =>
          rw [looks_unnamed signed named,header_lit]
          constructor
          · intro cells other same _
            cases same
            exact cells
          · exact fun all => all user rfl named
      | some name =>
          refine iff_of_true ?_ fun other same unnamed => by cases same; cases named.symm.trans unnamed
          rw [looks_named signed named]
          by_cases posts : d.posts = []
          · have blank := rows.cells (rows.table posts)
            rw [if_pos posts]
            cases darkMode <;>
              exact ⟨rfl,rfl,fun cell shown => Bool.noConfusion ((blank cell).symm.trans shown)⟩
          · rw [if_neg posts]
            cases darkMode <;> exact ⟨rfl,rfl,fun _ => Bool.noConfusion⟩

theorem appear_backed (signed : d.currentUser ≠ none) : (look.appear darkMode d).Backed darkMode d ↔
    ∀ user, d.currentUser = some user → user.displayName = none → d.posts ≠ [] := by
  obtain ⟨user,signed⟩ := Option.ne_none_iff_exists'.mp signed
  cases named : user.displayName with
  | none =>
      rw [looks_unnamed signed named]
      cases posts : d.posts <;> cases darkMode <;> simp [Look.Backed,signed,named,posts,Look.header,tableColor]
  | some name =>
      rw [looks_named signed named]
      cases posts : d.posts <;> cases darkMode <;>
        simp [Look.Backed,signed,named,posts,Look.filled,Look.emptied,tableColor]

theorem act_lit {action : Action} (lit : look.Lit darkMode) : (look.act darkMode d action).Lit darkMode := by
  have reloaded : look.reloadData.Lit darkMode := by
    cases darkMode <;> exact ⟨lit.statsBg,lit.postCountLabel,fun _ => Bool.noConfusion⟩
  cases action with
  | deliver index =>
      simp only [Look.act]
      split
      · split
        · exact reloaded
        · exact lit
      · exact lit
  | delete row =>
      simp only [Look.act]
      split
      · exact reloaded
      · cases darkMode <;> exact ⟨lit.statsBg,lit.postCountLabel,fun _ => Bool.noConfusion⟩
  | cellForRowAt row cell =>
      refine ⟨by cases darkMode <;> exact lit.statsBg,by cases darkMode <;> exact lit.postCountLabel,?_⟩
      intro other shown
      by_cases same : other = cell
      · simp [Look.act,same,paint_paint]
      · simp only [Look.act,Function.update_of_ne same] at shown ⊢
        exact lit.cells other shown
  | _ => exact lit

theorem hide_lit (cell : Nat) (lit : look.Lit darkMode) : (look.hide cell).Lit darkMode := by
  refine ⟨by cases darkMode <;> exact lit.statsBg,by cases darkMode <;> exact lit.postCountLabel,?_⟩
  intro other shown
  by_cases same : other = cell
  · simp [Look.hide,same] at shown
  · exact lit.cells other (by simpa [Look.hide,same] using shown)

section

variable {auto : AutoId} {server : Server} {next : Device} {action : Action} {request : Option Request}

theorem Reacts.rows (rule : Reacts auto server d action ⟨request,some next⟩) (other : action ≠ .viewDidAppear)
    (rows : look.Rows d) : (look.act darkMode d action).Rows next := by
  cases rule with
  | appearOut | appearUnnamed | appearNamed => exact absurd rfl other
  | uploaded => exact ⟨by simp,rows.cells⟩
  | deliverEmpty waiting empty =>
      simp only [Look.act,waiting,empty,List.length_nil,gt_iff_lt,Nat.lt_irrefl,if_false]
      exact ⟨rows.table,rows.cells⟩
  | deliver waiting nonempty reads =>
      simp only [Look.act,waiting,gt_iff_lt,List.length_pos_iff.mpr nonempty,if_true]
      exact ⟨id,fun _ _ => rfl⟩
  | @delete row user post key inside signed found named same =>
      have here := (List.getElem?_eq_some_iff.mp found).1
      refine ⟨fun empty => ?_,fun _ cell => by simp only [Look.act]; split <;> rfl⟩
      rw [without_posts,eraseIdx_empty here] at empty
      rw [Device.without,refresh_table]
      simp only [(eraseIdx_empty here).mpr empty,if_true]
      exact (eraseIdx_empty inside).mpr (same.trans empty)
  | cellEmpty inside | cellImage inside | cellRequest inside =>
      exact ⟨rows.table,fun empty => absurd inside (by simp [show d.table = [] from empty])⟩
  | urlFound pending inside =>
      exact ⟨fun empty => rows.table ((List.set_eq_nil_iff _ _).mp empty),rows.cells⟩
  | _ => exact ⟨rows.table,rows.cells⟩

theorem tableColor_other : tableColor darkMode true ≠ tableColor darkMode false := by cases darkMode <;> decide

theorem act_backed (rule : Reacts auto server d action ⟨request,some next⟩) (other : action ≠ .viewDidAppear)
    (backed : look.Backed darkMode d) :
    (look.act darkMode d action).Backed darkMode next ↔ ¬ d.Fills action ∧ (d.Empties action → darkMode = true) := by
  have still {e : Device} {shown : Look} (color : shown.backgroundColor = look.backgroundColor)
      (same : e.posts = [] ↔ d.posts = []) : shown.Backed darkMode e := by
    have empty : e.posts.isEmpty = d.posts.isEmpty := Bool.eq_iff_iff.mpr (by simpa only [List.isEmpty_iff] using same)
    rw [Look.Backed,color,empty]
    exact backed
  -- A list that gets posts keeps the background of the one it was.
  have filled {e : Device} {shown : Look} (color : shown.backgroundColor = look.backgroundColor)
      (posts : e.posts ≠ []) : shown.Backed darkMode e ↔ d.posts ≠ [] := by
    rw [Look.Backed,color,show look.backgroundColor = _ from backed,List.isEmpty_eq_false_iff.mpr posts]
    cases before : d.posts with
    | nil => exact iff_of_false (fun same => tableColor_other (Option.some.inj same)) fun no => no rfl
    | cons => exact iff_of_true rfl (List.cons_ne_nil _ _)
  cases rule with
  | appearOut | appearUnnamed | appearNamed => exact absurd rfl other
  | uploaded pending =>
      refine (filled rfl (by simp)).trans ?_
      simp [Device.Fills,Device.Empties,pending]
  | @deliver index uid snapshot rest posts waiting nonempty reads =>
      have listed : posts.reverse ≠ [] := by
        intro none
        have size := mapM_length reads
        rw [List.reverse_eq_nil_iff.mp none] at size
        exact nonempty (List.length_eq_zero_iff.mp size.symm)
      refine (filled ?_ listed).trans ?_
      · simp [Look.act,waiting,List.length_pos_iff.mpr nonempty,Look.reloadData]
      · simp [Device.Fills,Device.Empties,waiting,nonempty]
  | @delete row user post key inside signed found named same =>
      have here := (List.getElem?_eq_some_iff.mp found).1
      have erased := eraseIdx_empty here
      by_cases last : d.posts.length = 1
      · have none := erased.mpr last
        simp only [Look.Backed,Look.act,without_posts,none,List.length_nil,gt_iff_lt,Nat.lt_irrefl,if_false,
          Device.Fills,Device.Empties,last,not_false_eq_true,true_and,forall_const,Option.some.injEq]
        cases darkMode <;> decide
      · have some_left := mt erased.mp last
        refine iff_of_true (still ?_ ?_) ⟨id,fun single => absurd single last⟩
        · simp [Look.act,List.length_pos_iff.mpr some_left,Look.reloadData]
        · rw [without_posts]
          exact iff_of_false some_left (List.ne_nil_of_length_pos (Nat.zero_lt_of_lt here))
  | deliverEmpty waiting empty =>
      refine iff_of_true (still ?_ Iff.rfl) ⟨?_,False.elim⟩
      · simp [Look.act,waiting,empty]
      · simp [Device.Fills,waiting,empty]
  | profileUploaded pending => exact iff_of_true (still rfl Iff.rfl) ⟨by simp [Device.Fills,pending],False.elim⟩
  | urlFound => exact iff_of_true (still rfl (List.set_eq_nil_iff _ _)) ⟨id,False.elim⟩
  | _ => exact iff_of_true (still rfl Iff.rfl) ⟨id,False.elim⟩

end

theorem advance_appears (rule : Advances a .viewDidAppear b) :
    a.device.currentUser = none ∧ b.view.showsJourney = false ∨
      a.device.currentUser ≠ none ∧ b.view.showsJourney = true ∧ b.device.posts = a.device.posts := by
  cases rule with
  | appearOut _ nobody => exact .inl ⟨nobody,rfl⟩
  | appearUnnamed _ signed => exact .inr ⟨by simp [signed],greeting_shows a,rfl⟩
  | appearNamed _ signed => exact .inr ⟨by simp [signed],greeting_shows a,refresh_posts _⟩
  | move moved => simp [View.move] at moved
  | settings opens => simp [View.Opens] at opens
  | unwrapTrap shown => simp [View.Opens] at shown
  | commitName _ leaves => simp at leaves

theorem Look.Rows.blind {e : Device} (rows : look.Rows d) (posts : e.posts = d.posts) (table : e.table = d.table) :
    look.Rows e := ⟨by rw [posts,table]; exact rows.table,by rw [table]; exact rows.cells⟩

theorem appear_rows (rule : Advances a .viewDidAppear b) (rows : look.Rows a.device) :
    (look.appear darkMode a.device).Rows b.device := by
  have header : (look.header darkMode).visible = look.visible := by cases darkMode <;> rfl
  cases rule with
  | appearOut _ nobody =>
      rw [looks_signedOut nobody]
      exact ⟨fun _ => rfl,fun _ _ => rfl⟩
  | appearUnnamed _ signed unnamed =>
      rw [looks_unnamed signed unnamed]
      exact ⟨rows.table,by rw [header]; exact rows.cells⟩
  | appearNamed _ signed named =>
      rw [looks_named signed named]
      by_cases empty : a.device.posts = []
      · have emptied : ((look.header darkMode).emptied darkMode).visible = look.visible := by cases darkMode <;> rfl
        refine Look.Rows.blind (d := a.device) ?_ (refresh_posts _) ?_
        · rw [if_pos empty]
          exact ⟨rows.table,by rw [emptied]; exact rows.cells⟩
        · exact (refresh_table _).trans (if_pos empty)
      · refine ⟨fun none => absurd ((refresh_posts _).symm.trans none) empty,fun _ _ => ?_⟩
        rw [if_neg empty]
        cases darkMode <;> rfl
  | move moved => simp [View.move] at moved
  | settings opens => simp [View.Opens] at opens
  | unwrapTrap shown => simp [View.Opens] at shown
  | commitName _ leaves => simp at leaves

theorem settings_hides (rule : Advances a .settingsWillAppear b) : a.view = .settings := by
  cases rule with
  | settings opens => simpa [View.Opens] using opens
  | unwrapTrap shown => simpa [View.Opens] using shown
  | move moved => simp [View.move] at moved
  | commitName _ leaves => simp at leaves

end

variable {platform : Platform} {P : Bool → Device → Look → Prop} {ok : Screen → Device → Look → Input → Prop}
    {s t : Themed D} {d : D} {input : Input} {next : Program D}

omit [DecidableEq D] in
theorem permits_here {screen : Screen} (here : s.program.screen d = some screen) : s.Permits ok d (.input d input) ↔
    (¬ s.program.Crashes d input → ok screen (s.program.world.device d) (s.look d) input) := by
  simp [Themed.Permits,here]

theorem shows_here {screen : Screen} {look : Look} (here : next.screen d = some screen) :
    Themed.Shows P ⟨next,Function.update s.look d look⟩ d ↔ ((next.world.device d).running = true →
      screen.view.showsJourney = true → P screen.darkMode (next.world.device d) look) := by
  simp [Themed.Shows,here]

omit [DecidableEq D] in
theorem paint_other (direct : input ≠ .act .viewDidAppear) (quiet : ∀ action, input ≠ .action action) :
    s.paint d input = s.look d := by
  unfold Themed.paint
  split
  · unfold Look.after
    split
    · exact absurd rfl direct
    · exact absurd rfl (quiet _)
    · rfl
  · rfl

omit [DecidableEq D] in
theorem act_exact {screen shown : Screen} {act : Act} {a : App} (decides : Decides P ok)
    (here : s.program.screen d = some screen) (running : (s.program.world.device d).running = true)
    (asks : input.Asks platform screen shown act)
    (acted : Advances (shown.app (s.program.world.device d) s.program.accounts) act a)
    (rows : (s.look d).Rows (s.program.world.device d)) (shows : s.Shows P d) {e : Device}
    (posts : e.posts = a.device.posts) :
    (a.view.showsJourney = true → P shown.darkMode e (s.paint d input)) ↔
      ok screen (s.program.world.device d) (s.look d) input := by
  by_cases appears : act = .viewDidAppear
  · subst appears
    cases asks
    have painted : s.paint d (.act .viewDidAppear) =
      (s.look d).appear screen.darkMode (s.program.world.device d) := by simp [Themed.paint,here,Look.after]
    rw [painted]
    rcases advance_appears acted with ⟨nobody,away⟩ | ⟨signed,up,same⟩
    · exact iff_of_true (fun up => Bool.noConfusion (away.symm.trans up)) (decides.signedOut nobody)
    · rw [← decides.appears rows signed]
      have list := posts.trans same
      exact ⟨fun all => decides.blind list (all up),fun own _ => decides.blind list.symm own⟩
  · obtain ⟨same,_⟩ := advance_list acted appears
    have direct : input ≠ .act .viewDidAppear := by cases asks <;> simp [appears]
    have quiet : ∀ action, input ≠ .action action := by cases asks <;> simp
    refine iff_of_true (fun up => ?_) (decides.otherwise direct quiet)
    have before := advance_shows acted appears up
    have kept : shown.view = screen.view ∧ shown.darkMode = screen.darkMode := by
      cases asks with
      | darkModeSwitcher =>
          rw [settings_hides acted] at before
          cases before
      | act | openNewPost => exact ⟨rfl,rfl⟩
    rw [paint_other direct quiet,kept.2]
    exact decides.blind (posts.trans same).symm (shows screen here running (kept.1 ▸ before))

theorem starts_direct {screen shown : Screen} {action : Action} (starts : input.Starts screen shown action) :
    action ≠ .viewDidAppear := by
  cases starts with
  | saveNewPost => exact Action.noConfusion
  | action offered =>
      intro appears
      subst appears
      cases view : screen.view <;> simp [View.offers,view] at offered

omit [DecidableEq D] in
theorem react_exact {screen : Screen} {action : Action} {reaction : Reaction} (decides : Decides P ok)
    (here : s.program.screen d = some screen) (running : (s.program.world.device d).running = true)
    (offered : screen.view.offers action = true)
    (rule : Reacts platform.auto s.program.world.server (s.program.world.device d) action reaction)
    (shows : s.Shows P d) (alive : reaction.device ≠ none) {e : Device}
    (posts : ∀ next, reaction.device = some next → e.posts = next.posts) :
    (screen.view.showsJourney = true → P screen.darkMode e (s.paint d (.action action))) ↔
      ok screen (s.program.world.device d) (s.look d) (.action action) := by
  obtain ⟨request,next⟩ := reaction
  obtain ⟨next,rfl⟩ := Option.ne_none_iff_exists'.mp alive
  have direct := starts_direct (.action offered)
  have painted : s.paint d (.action action) =
    (s.look d).act screen.darkMode (s.program.world.device d) action := by simp [Themed.paint,here,Look.after]
  rw [painted]
  cases up : screen.view.showsJourney with
  | false => exact iff_of_true Bool.noConfusion (decides.elsewhere up)
  | true =>
      rw [← decides.reacts rule direct up (shows screen here running up)]
      have same := posts next rfl
      exact ⟨fun all => decides.blind same (all rfl),fun own _ => decides.blind same.symm own⟩

theorem own_exact (decides : Decides P ok) (rule : Steps platform s.program d input next)
    (rows : (s.program.world.device d).running = true → (s.look d).Rows (s.program.world.device d))
    (crash : (s.program.world.device d).running = true →
      ((next.world.device d).running = true ↔ ¬ s.program.Crashes d input))
    (shows : s.Shows P d) :
    Themed.Shows P ⟨next,Function.update s.look d (s.paint d input)⟩ d ↔ s.Permits ok d (.input d input) := by
  cases rule with
  | @launch session fresh =>
      have here : (s.program.launch d session).screen d = some (.launched (.launch s.program.accounts session)) := by
        simp [Program.launch,Program.commit,Screen.launched,Screen.after]
      refine iff_of_true ?_ ?_
      · rw [shows_here here]
        exact fun _ => Bool.noConfusion
      · intro _ _ screen here
        cases fresh.symm.trans here
  | @act _ screen shown act a here running asks acted =>
      have after : (s.program.commit d shown a (act.request (s.program.world.device d))).screen d =
        some (shown.after a) := by simp [Program.commit]
      rw [shows_here after,permits_here here,← crash running]
      refine imp_congr_right fun alive => ?_
      exact act_exact decides here running asks acted (rows running) shows (by simp [Program.commit,Device.after])
  | @react _ screen shown action reaction here running starts reacts =>
      have after : (Program.show {s.program with world := s.program.world.commit d reaction} d shown).screen d =
        some shown := by simp [Program.show]
      rw [shows_here after,permits_here here,← crash running]
      refine imp_congr_right fun alive => ?_
      cases starts with
      | saveNewPost view =>
          refine iff_of_true (fun up => ?_) (decides.otherwise (by simp) (by simp))
          unfold Screen.saved at up
          split at up <;> simp_all [View.showsJourney]
      | action offered =>
          have lives : reaction.device ≠ none := (reacts.alive running).mp (by simpa [Program.show] using alive)
          refine react_exact decides here running offered reacts shows lives fun next same => ?_
          simp [Program.show,Device.after,same]
  | @edit screen index event draft after here running found reacts =>
      have kept : (s.program.show d {screen with drafts := screen.drafts.set index after}).screen d =
        some {screen with drafts := screen.drafts.set index after} := by simp [Program.show]
      have direct : Input.draft index event ≠ .act .viewDidAppear := by simp
      have quiet (action : Action) : Input.draft index event ≠ .action action := by simp
      rw [shows_here kept,permits_here here,paint_other direct quiet]
      exact iff_of_true (shows screen here) fun _ => decides.otherwise direct quiet
  | @editTrap screen index event draft here running found reacts =>
      rw [permits_here here]
      refine iff_of_true ?_ fun _ => decides.otherwise (by simp) (by simp)
      intro _ _ alive
      simp [World.settle,Device.after] at alive

theorem own_rows (rule : Steps platform s.program d input next)
    (hidden : s.program.screen d = none → ∀ cell, (s.look d).visible cell = false)
    (rows : (s.program.world.device d).running = true → (s.look d).Rows (s.program.world.device d))
    (alive : (next.world.device d).running = true) : (s.paint d input).Rows (next.world.device d) := by
  cases rule with
  | @launch session fresh =>
      have look : s.paint d (.launch session) = s.look d := paint_other (by simp) (by simp)
      rw [look]
      exact ⟨fun _ => by simp [Program.launch,Program.commit,Device.after,App.launch,Device.launched],
        fun _ => hidden fresh⟩
  | @act _ screen shown act a here running asks acted =>
      have posts : ((s.program.commit d shown a (act.request (s.program.world.device d))).world.device d).posts =
        a.device.posts := by simp [Program.commit,Device.after]
      have table : ((s.program.commit d shown a (act.request (s.program.world.device d))).world.device d).table =
        a.device.table := by simp [Program.commit,Device.after]
      by_cases appears : act = .viewDidAppear
      · subst appears
        cases asks
        have painted : s.paint d (.act .viewDidAppear) =
          (s.look d).appear screen.darkMode (s.program.world.device d) := by simp [Themed.paint,here,Look.after]
        rw [painted]
        exact (appear_rows acted (rows running)).blind posts table
      · obtain ⟨samePosts,sameTable⟩ := advance_list acted appears
        rw [paint_other (by cases asks <;> simp [appears]) (by cases asks <;> simp)]
        exact (rows running).blind (posts.trans samePosts) (table.trans sameTable)
  | @react _ screen shown action reaction here running starts reacts =>
      obtain ⟨request,outcome⟩ := reaction
      have lives : outcome ≠ none := (reacts.alive running).mp (by simpa [Program.show] using alive)
      obtain ⟨after,rfl⟩ := Option.ne_none_iff_exists'.mp lives
      have painted : s.paint d input = (s.look d).act screen.darkMode (s.program.world.device d) action := by
        cases starts <;> simp [Themed.paint,here,Look.after,Look.act]
      rw [painted]
      exact (reacts.rows (starts_direct starts) (rows running)).blind (by simp [Program.show,Device.after])
        (by simp [Program.show,Device.after])
  | @edit screen index event draft after here running found reacts =>
      rw [paint_other (by simp) (by simp)]
      exact rows running
  | editTrap here running found reacts => simp [World.settle,Device.after] at alive

structure Themed.Kept (s : Themed D) (d : D) : Prop where
  hidden : s.program.screen d = none → ∀ cell, (s.look d).visible cell = false
  rows : (s.program.world.device d).running = true → (s.look d).Rows (s.program.world.device d)

theorem steps_screen (rule : Steps platform s.program d input next) : next.screen d ≠ none := by
  cases rule with
  | launch => simp [Program.launch,Program.commit]
  | act => simp [Program.commit]
  | react | edit => simp [Program.show]
  | editTrap here => simp [here]

theorem steps_screen_other {x : D} (rule : Steps platform s.program x input next) (other : d ≠ x) :
    next.screen d = s.program.screen d := by
  cases rule with
  | launch => simp [Program.launch,Program.commit,other]
  | act => simp [Program.commit,other]
  | react | edit => simp [Program.show,other]
  | editTrap => rfl

theorem Themed.Kept.hide (kept : s.Kept d) (x : D) (cell : Nat) :
    Themed.Kept {s with look := Function.update s.look x ((s.look x).hide cell)} d := by
  by_cases same : d = x
  · subst same
    have fewer {c : Nat} (hidden : (s.look d).visible c = false) : ((s.look d).hide cell).visible c = false := by
      by_cases this : c = cell <;> simp [Look.hide,this,hidden]
    refine ⟨fun unlaunched c => ?_,fun alive => ?_⟩
    · simpa using fewer (kept.hidden unlaunched c)
    · have rows := kept.rows alive
      exact ⟨rows.table,fun empty c => by simpa using fewer (rows.cells empty c)⟩
  · exact ⟨by simpa [same] using kept.hidden,by simpa [same] using kept.rows⟩

theorem step_kept {sight : Sight D} (kept : s.Kept d) (taken : s.step platform sight = some t) : t.Kept d := by
  cases sight with
  | input x input =>
      obtain ⟨_,moved⟩ := Option.ite_none_left_eq_some.mp taken
      obtain ⟨next,ran,rfl⟩ := Option.map_eq_some_iff.mp moved
      have rule := program_steps ran
      by_cases same : d = x
      · subst same
        refine ⟨fun unlaunched => absurd unlaunched (steps_screen rule),fun alive => ?_⟩
        simpa using own_rows rule kept.hidden kept.rows alive
      · have still := steps_other rule same
        refine ⟨fun unlaunched => ?_,fun alive => ?_⟩
        · simpa [same] using kept.hidden ((steps_screen_other rule same).symm.trans unlaunched)
        · have running : (s.program.world.device d).running = true :=
            (congrArg Device.running still).symm.trans alive
          have posts : (next.world.device d).posts = (s.program.world.device d).posts := by
            simpa only [local_posts] using congrArg Device.posts still
          have table : (next.world.device d).table = (s.program.world.device d).table := by
            simpa only [local_table] using congrArg Device.table still
          simpa [same] using (kept.rows running).blind posts table
  | didEndDisplaying x cell =>
      obtain ⟨_,hides⟩ := Option.ite_none_right_eq_some.mp taken
      cases hides
      exact kept.hide x cell

omit [DecidableEq D] in
theorem start_kept (d : D) : Themed.Kept .start d := ⟨fun _ _ => rfl,fun _ => ⟨fun _ => rfl,fun _ _ => rfl⟩⟩

-- The looks see the program and nothing in it depends on them.
def Sight.input? : Sight D → Option (D × Input)
  | .input d input => some (d,input)
  | .didEndDisplaying _ _ => none

theorem run_program {sights : List (Sight D)} (ran : themedRun platform .start sights = some s) :
    programRun platform .start (sights.filterMap Sight.input?) = some s.program := by
  have follows (s : Themed D) (sight : Sight D) (t : Themed D) (p : Program D) (same : s.program = p)
      (taken : s.step platform sight = some t) :
      ∃ q, programRun platform p (sight.input?).toList = some q ∧ t.program = q := by
    subst same
    cases sight with
    | input x input =>
        obtain ⟨_,moved⟩ := Option.ite_none_left_eq_some.mp taken
        obtain ⟨next,ran,rfl⟩ := Option.map_eq_some_iff.mp moved
        exact ⟨next,Runs.run_one.trans ran,rfl⟩
    | didEndDisplaying x cell =>
        obtain ⟨_,hides⟩ := Option.ite_none_right_eq_some.mp taken
        cases hides
        exact ⟨s.program,rfl,rfl⟩
  obtain ⟨last,reached,same⟩ :=
    Runs.run_projects (R := fun (s : Themed D) p => s.program = p) Sight.input? rfl follows ran
  exact same ▸ reached

theorem themedRun_kept {sights : List (Sight D)} (ran : themedRun platform .start sights = some s) : s.Kept d :=
  Runs.run_invariant (I := fun s : Themed D => s.Kept d) (start_kept d) (fun _ _ _ => step_kept) ran

theorem shows_exact (decides : Decides P ok) (d : D) {sights : List (Sight D)}
    (ran : themedRun platform .start sights = some s) :
    Runs.Always (Themed.step platform) .start sights (fun _ s => s.Shows P d) ↔
      Runs.Guarded (Themed.step platform) .start sights fun _ s sight => s.Permits ok d sight := by
  refine Runs.always_iff_guarded (fun _ here => by cases here) ?_ ran
  intro past s sight t reached shows taken
  cases sight with
  | input x input =>
      obtain ⟨_,moved⟩ := Option.ite_none_left_eq_some.mp taken
      obtain ⟨next,performed,rfl⟩ := Option.map_eq_some_iff.mp moved
      have rule := program_steps performed
      by_cases same : d = x
      · subst same
        have entered := program_entered (run_program reached)
        exact own_exact decides rule (themedRun_kept reached).rows
          (fun running => steps_crash rule running (run_sane (run_program reached) running) entered) shows
      · have still := steps_other rule same
        refine iff_of_true (fun screen here alive up => ?_) fun own => absurd own.symm same
        have running : (s.program.world.device d).running = true := (congrArg Device.running still).symm.trans alive
        have posts : (next.world.device d).posts = (s.program.world.device d).posts := by
          simpa only [local_posts] using congrArg Device.posts still
        have before := shows screen ((steps_screen_other rule same).symm.trans here) running up
        simpa only [Function.update_of_ne same] using decides.blind posts.symm before
  | didEndDisplaying x cell =>
      obtain ⟨_,hides⟩ := Option.ite_none_right_eq_some.mp taken
      cases hides
      refine iff_of_true (fun screen here alive up => ?_) trivial
      have before := shows screen here alive up
      by_cases same : d = x
      · subst same
        simpa using decides.hides cell before
      · simpa only [Function.update_of_ne same] using before

-- An appearance leaves cells as they are when it finds a user without a name.
def Screen.KeepsLit (screen : Screen) (d : Device) (look : Look) : Input → Prop
  | .act .viewDidAppear => ∀ user, d.currentUser = some user → user.displayName = none →
      ∀ cell, look.visible cell = true → (look.cell cell).paint screen.darkMode = look.cell cell
  | _ => True

theorem lit_decides : Decides (fun darkMode _ look => look.Lit darkMode) Screen.KeepsLit where
  blind _ lit := lit
  hides := hide_lit
  appears rows _ := appear_lit rows
  reacts _ _ _ lit := iff_of_true (act_lit lit) trivial
  signedOut nobody user signed := by cases nobody.symm.trans signed
  elsewhere _ := trivial
  otherwise direct _ := by
    unfold Screen.KeepsLit
    split
    · exact absurd rfl direct
    · trivial

theorem theme_exact (d : D) {sights : List (Sight D)} (ran : themedRun platform .start sights = some s) :
    Runs.Always (Themed.step platform) .start sights
        (fun _ s => s.Shows (fun darkMode _ look => look.Lit darkMode) d) ↔
      Runs.Guarded (Themed.step platform) .start sights fun _ s sight => s.Permits Screen.KeepsLit d sight :=
  shows_exact lit_decides d ran

omit [DecidableEq D] in
theorem appearance_survives {p : Program D} : ¬ p.Crashes d (.act .viewDidAppear) := by
  intro crash
  obtain ⟨_,_,_,other,_⟩ := crash
  exact other rfl

-- Two addresses are tried at the log-in and the second answer comes in the settings,
-- after the switch: its account is new and has no name.
theorem theme_exact_lateSignIn :
    let sights : List (Sight Unit) := [.launch none,.act .viewDidAppear,.act .showLogin,
      .act (.submitInformations "u@x" "secret"),.act (.submitInformations "v@x" "secret"),.act (.signInDone 0 none),
      .act (.createUserDone 1 (some "u")),.act .viewDidAppear,.act (.commitDone 0 true),.act .editLater,
      .openNewPost "noon" false,.draft 0 (.shouldChangeText ⟨⟨0,0⟩,['a']⟩),.saveNewPost,.act .viewDidAppear,
      .action (.deliver 0),.action (.cellForRowAt 0 7),.act .openSettings,.darkModeSwitcher true,
      .act (.signInDone 0 none),.act (.createUserDone 0 (some "v")),.act .leaveSettings].map (.input ())
    ¬ Runs.Always (Themed.step phone) .start (sights ++ [.input () (.act .viewDidAppear)])
      fun _ s => s.Shows (fun darkMode _ look => look.Lit darkMode) () := by
  intro sights
  obtain ⟨final,ran⟩ := Option.isSome_iff_exists.mp
    (show (themedRun phone .start (sights ++ [.input () (.act .viewDidAppear)])).isSome = true by decide)
  rw [theme_exact () ran]
  intro guarded
  obtain ⟨s,reached,dark,user,shown,light⟩ : ∃ s, themedRun phone .start sights = some s ∧
      (s.program.screen ()).map (·.darkMode) = some true ∧
      (s.program.world.device ()).currentUser = some ⟨"v",none⟩ ∧ (s.look ()).visible 7 = true ∧
      ((s.look ()).cell 7).paint true ≠ (s.look ()).cell 7 := Runs.run_reaches (by decide)
  obtain ⟨screen,here,isDark⟩ := Option.map_eq_some_iff.mp dark
  have painted := guarded sights (.input () (.act .viewDidAppear)) [] s rfl reached rfl appearance_survives screen here
    _ user rfl 7 shown
  exact light (isDark ▸ painted)

-- So does the background of the table, which is that of a list with posts.
def Screen.KeepsBacked (screen : Screen) (d : Device) (_ : Look) : Input → Prop
  | .act .viewDidAppear => ∀ user, d.currentUser = some user → user.displayName = none → d.posts ≠ []
  | .action action => screen.view.showsJourney = true →
      ¬ d.Fills action ∧ (d.Empties action → screen.darkMode = true)
  | _ => True

theorem backed_decides : Decides (fun darkMode d look => look.Backed darkMode d) Screen.KeepsBacked where
  blind same backed := by simpa only [Look.Backed,same] using backed
  hides _ backed := backed
  appears _ signed := appear_backed signed
  reacts rule direct up backed := (act_backed rule direct backed).trans ⟨fun keeps _ => keeps,fun keeps => keeps up⟩
  signedOut nobody user signed := by cases nobody.symm.trans signed
  elsewhere away up := by cases away.symm.trans up
  otherwise direct quiet := by
    unfold Screen.KeepsBacked
    split
    · exact absurd rfl direct
    · exact absurd rfl (quiet _)
    · trivial

theorem background_exact (d : D) {sights : List (Sight D)} (ran : themedRun platform .start sights = some s) :
    Runs.Always (Themed.step platform) .start sights
        (fun _ s => s.Shows (fun darkMode d look => look.Backed darkMode d) d) ↔
      Runs.Guarded (Themed.step platform) .start sights fun _ s sight => s.Permits Screen.KeepsBacked d sight :=
  shows_exact backed_decides d ran

-- Every new account sees an empty list on the background of one with posts.
theorem background_exact_newAccount :
    let sights : List (Sight Unit) := [.launch none,.act .viewDidAppear,.act .showLogin,
      .act (.submitInformations "u@x" "secret"),.act (.signInDone 0 none),
      .act (.createUserDone 0 (some "u"))].map (.input ())
    ¬ Runs.Always (Themed.step phone) .start (sights ++ [.input () (.act .viewDidAppear)])
      fun _ s => s.Shows (fun darkMode d look => look.Backed darkMode d) () := by
  intro sights
  obtain ⟨final,ran⟩ := Option.isSome_iff_exists.mp
    (show (themedRun phone .start (sights ++ [.input () (.act .viewDidAppear)])).isSome = true by decide)
  rw [background_exact () ran]
  intro guarded
  obtain ⟨s,reached,launched,user,empty⟩ : ∃ s, themedRun phone .start sights = some s ∧
      (s.program.screen ()).isSome = true ∧ (s.program.world.device ()).currentUser = some ⟨"u",none⟩ ∧
      (s.program.world.device ()).posts = [] := Runs.run_reaches (by decide)
  obtain ⟨screen,here⟩ := Option.isSome_iff_exists.mp launched
  exact guarded sights (.input () (.act .viewDidAppear)) [] s rfl reached rfl appearance_survives screen here _ user rfl
    empty

end Journey
