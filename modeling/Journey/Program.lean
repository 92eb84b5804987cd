import Journey.Coherence
import Journey.DisplayName
import Journey.Draft

namespace Journey

open Graphemes

structure Platform where
  auto : AutoId
  swift : Segmentation
  placeholder : UIImage

-- What a process has on its screens. Closures keep the screen of a new post alive
-- after it is gone, so that none is forgotten; the last one is the one shown.
structure Screen where
  view : View
  controllers : Nat
  nameInput : String
  requests : List AuthRequest
  commits : List ProfileChange
  darkMode : Bool
  drafts : List Draft

structure Program (D : Type) where
  world : World D
  accounts : String → Option (Option String)
  screen : D → Option Screen

inductive Input where
  | launch (session : Option String)
  | act (act : Act)
  | darkModeSwitcher (isOn : Bool)
  | openNewPost (date : String) (locationServicesEnabled : Bool)
  | draft (index : Nat) (event : DraftEvent)
  | saveNewPost
  | action (action : Action)
  deriving DecidableEq, Repr

def Program.start : Program D := ⟨.start,fun _ => none,fun _ => none⟩

def Screen.app (screen : Screen) (device : Device) (accounts : String → Option (Option String)) : App :=
  {device,accounts,view := screen.view,controllers := screen.controllers,nameInput := screen.nameInput,
   requests := screen.requests,commits := screen.commits}

def Screen.after (screen : Screen) (a : App) : Screen :=
  {screen with view := a.view,controllers := a.controllers,nameInput := a.nameInput,requests := a.requests,
               commits := a.commits}

def Screen.launched (a : App) : Screen :=
  {view := a.view,controllers := a.controllers,nameInput := a.nameInput,requests := a.requests,
   commits := a.commits,darkMode := false,drafts := []}

def Act.request (d : Device) : Act → Option Request
  | .viewDidAppear => (appearance d).request
  | _ => none

-- Rows are deleted in the journal, a profile photo is picked in the settings; a
-- closure is called, and a cell filled, on any screen.
def View.offers : View → Action → Bool
  | .journey,.delete _ => true
  | .settings,.uploadProfilePhoto _ => true
  | _,.uploadDone _ _ | _,.deliver _ | _,.cellForRowAt _ _ | _,.urlDone _ _ => true
  | _,_ => false

-- The callbacks of location services and of the geocoder outlive the screen.
def Screen.receives (screen : Screen) (index : Nat) : DraftEvent → Bool
  | .didUpdateLocations _ | .geocoded _ _ _ | .didChangeAuthorization _ => true
  | _ => decide (screen.view = .newPost ∧ index + 1 = screen.drafts.length)

def Form.complete (form : Form) : Bool := form.text ≠ "" && form.image.isSome

def Screen.saved (screen : Screen) (form : Form) : Screen :=
  if form.complete then {screen with view := .appearing} else screen

variable {D : Type} [DecidableEq D]

def Program.show (p : Program D) (d : D) (screen : Screen) : Program D :=
  {p with screen := Function.update p.screen d (some screen)}

def Program.commit (p : Program D) (d : D) (screen : Screen) (a : App) (request : Option Request) : Program D :=
  {world := p.world.commit d ⟨request,some a.device⟩,accounts := a.accounts,
   screen := Function.update p.screen d (some (screen.after a))}

def Program.advance (p : Program D) (d : D) (screen : Screen) (act : Act) : Option (Program D) :=
  (Journey.advance (screen.app (p.world.device d) p.accounts) act).map fun a =>
    p.commit d screen a (act.request (p.world.device d))

def Program.react (auto : AutoId) (p : Program D) (d : D) (screen : Screen) (action : Action) : Option (Program D) :=
  (Journey.step auto p.world (d,action)).map fun world => Program.show {p with world} d screen

def Program.edit (swift : Segmentation) (p : Program D) (d : D) (screen : Screen) (index : Nat) (event : DraftEvent) :
    Option (Program D) :=
  screen.drafts[index]?.bind fun draft => (draft.react swift event).map fun outcome =>
    match outcome with
    | some draft => p.show d {screen with drafts := screen.drafts.set index draft}
    | none => {p with world := p.world.settle d none}

def Program.launch (p : Program D) (d : D) (session : Option String) : Program D :=
  p.commit d (.launched (.launch p.accounts session)) (.launch p.accounts session) none

def Program.perform (platform : Platform) (p : Program D) (d : D) (screen : Screen) : Input → Option (Program D)
  | .launch _ => none
  | .act act => if act = .openNewPost then none else p.advance d screen act
  | .darkModeSwitcher isOn => p.advance d {screen with darkMode := isOn} .settingsWillAppear
  | .openNewPost date enabled => p.advance d {screen with
      drafts := screen.drafts ++ [.opened platform.placeholder screen.darkMode date enabled]} .openNewPost
  | .draft index event => if screen.receives index event then p.edit platform.swift d screen index event else none
  | .saveNewPost => if screen.view = .newPost then screen.drafts.getLast?.bind fun draft =>
      p.react platform.auto d (screen.saved draft.form) (.saveNewPost draft.form) else none
  | .action action => if screen.view.offers action then p.react platform.auto d screen action else none

def Program.step (platform : Platform) (p : Program D) (e : D × Input) : Option (Program D) :=
  match p.screen e.1,e.2 with
  | none,.launch session => some (p.launch e.1 session)
  | none,_ => none
  | some screen,input => if (p.world.device e.1).running then p.perform platform e.1 screen input else none

abbrev programRun (platform : Platform) : Program D → List (D × Input) → Option (Program D) :=
  Runs.run (Program.step platform)

-- The same behaviour as rules. An input is an act on the screen that it leaves, an
-- action of the process on its way to a screen, or an event of a new post.
inductive Input.Asks (platform : Platform) (screen : Screen) : Input → Screen → Act → Prop where
  | act {act : Act} (direct : act ≠ .openNewPost) : Asks platform screen (.act act) screen act
  | darkModeSwitcher {isOn : Bool} :
      Asks platform screen (.darkModeSwitcher isOn) {screen with darkMode := isOn} .settingsWillAppear
  | openNewPost {date : String} {enabled : Bool} : Asks platform screen (.openNewPost date enabled) {screen with
      drafts := screen.drafts ++ [.opened platform.placeholder screen.darkMode date enabled]} .openNewPost

inductive Input.Starts (screen : Screen) : Input → Screen → Action → Prop where
  | saveNewPost {draft : Draft} (shown : screen.view = .newPost) (last : screen.drafts.getLast? = some draft) :
      Starts screen .saveNewPost (screen.saved draft.form) (.saveNewPost draft.form)
  | action {action : Action} (offered : screen.view.offers action = true) : Starts screen (.action action) screen action

inductive Steps (platform : Platform) (p : Program D) (d : D) : Input → Program D → Prop where
  | launch {session : Option String} (fresh : p.screen d = none) :
      Steps platform p d (.launch session) (p.launch d session)
  | act {input : Input} {screen shown : Screen} {act : Act} {a : App} (here : p.screen d = some screen)
      (running : (p.world.device d).running = true) (asks : input.Asks platform screen shown act)
      (acted : Advances (shown.app (p.world.device d) p.accounts) act a) :
      Steps platform p d input (p.commit d shown a (act.request (p.world.device d)))
  | react {input : Input} {screen shown : Screen} {action : Action} {reaction : Reaction}
      (here : p.screen d = some screen) (running : (p.world.device d).running = true)
      (starts : input.Starts screen shown action)
      (reacts : Reacts platform.auto p.world.server (p.world.device d) action reaction) :
      Steps platform p d input (Program.show {p with world := p.world.commit d reaction} d shown)
  | edit {screen : Screen} {index : Nat} {event : DraftEvent} {draft next : Draft} (here : p.screen d = some screen)
      (running : (p.world.device d).running = true) (found : screen.drafts[index]? = some draft)
      (reacts : draft.react platform.swift event = some (some next)) : Steps platform p d (.draft index event)
        (p.show d {screen with drafts := screen.drafts.set index next})
  | editTrap {screen : Screen} {index : Nat} {event : DraftEvent} {draft : Draft} (here : p.screen d = some screen)
      (running : (p.world.device d).running = true) (found : screen.drafts[index]? = some draft)
      (reacts : draft.react platform.swift event = some none) : Steps platform p d (.draft index event)
        {p with world := p.world.settle d none}

variable {platform : Platform} {p next : Program D} {d x : D} {input : Input}

theorem act_steps {screen shown : Screen} {act : Act} (here : p.screen d = some screen)
    (running : (p.world.device d).running = true) (asks : input.Asks platform screen shown act)
    (acted : p.advance d shown act = some next) : Steps platform p d input next := by
  obtain ⟨a,advanced,rfl⟩ := Option.map_eq_some_iff.mp acted
  exact .act here running asks (advance_iff.mp advanced).2

theorem react_steps {screen shown : Screen} {action : Action} (here : p.screen d = some screen)
    (starts : input.Starts screen shown action) (reacted : p.react platform.auto d shown action = some next) :
    Steps platform p d input next := by
  obtain ⟨world,taken,rfl⟩ := Option.map_eq_some_iff.mp reacted
  obtain ⟨running,reaction,rule,rfl⟩ := step_iff.mp taken
  exact .react here running starts rule

theorem program_steps (taken : p.step platform (d,input) = some next) : Steps platform p d input next := by
  unfold Program.step at taken
  cases here : p.screen d with
  | none =>
      simp only [here] at taken
      cases input with
      | launch session =>
          cases taken
          exact .launch here
      | _ => cases taken
  | some screen =>
      simp only [here,Option.ite_none_right_eq_some] at taken
      obtain ⟨running,taken⟩ := taken
      cases input with
      | launch session => cases taken
      | act act =>
          obtain ⟨direct,acted⟩ := Option.ite_none_left_eq_some.mp taken
          exact act_steps here running (.act direct) acted
      | darkModeSwitcher isOn => exact act_steps here running .darkModeSwitcher taken
      | openNewPost date enabled => exact act_steps here running .openNewPost taken
      | draft index event =>
          obtain ⟨_,edited⟩ := Option.ite_none_right_eq_some.mp taken
          obtain ⟨draft,found,edited⟩ := Option.bind_eq_some_iff.mp edited
          obtain ⟨outcome,reacts,rfl⟩ := Option.map_eq_some_iff.mp edited
          cases outcome with
          | none => exact .editTrap here running found reacts
          | some after => exact .edit here running found reacts
      | saveNewPost =>
          obtain ⟨shown,saved⟩ := Option.ite_none_right_eq_some.mp taken
          obtain ⟨draft,last,saved⟩ := Option.bind_eq_some_iff.mp saved
          exact react_steps here (.saveNewPost shown last) saved
      | action action =>
          obtain ⟨offered,acted⟩ := Option.ite_none_right_eq_some.mp taken
          exact react_steps here (.action offered) acted

end Journey
