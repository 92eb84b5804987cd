import Mathlib.Logic.Function.Basic
import Journey.JourneyTVC

namespace Journey

-- What is on the screen. In `appearing`, `editing` and `loggingOut` a view or an
-- alert is being dismissed and what follows it has still to be called. Every
-- presentation of the introduction is a flow of its own, and every LoginVC that is
-- pushed there has a number of its own.
inductive View where
  | appearing
  | journey
  | welcome
  | editing
  | newPost
  | introduction (flow : Nat)
  | login (flow number : Nat)
  | settings
  | disconnecting (title : String)
  | loggingOut
  deriving DecidableEq, Repr

def View.flow : View → Option Nat
  | .introduction flow | .login flow _ => some flow
  | _ => none

inductive Controller where
  | introductionVC (flow : Nat)
  | loginVC (number : Nat)
  deriving DecidableEq, Repr

-- The navigation stack that the introduction is presented in.
def View.stack : View → List Controller
  | .introduction flow => [.introductionVC flow]
  | .login flow number => [.introductionVC flow,.loginVC number]
  | _ => []

def View.inTransition : View → Bool
  | .appearing | .editing | .loggingOut => true
  | _ => false

-- The closures of the authentication calls, with the number of the IntroductionVC
-- or the LoginVC that each captured as self.
inductive AuthRequest where
  | logIn (flow : Nat)
  | signInAndRetrieveData
  | signIn (number : Nat) (email password : String)
  | createUser (number : Nat) (email password : String)
  deriving DecidableEq, Repr

structure ProfileChange where
  uid : String
  displayName : String
  deriving DecidableEq, Repr

-- One process with its screens; `controllers` counts the view controllers of the
-- introduction that were made. `accounts` is what the authentication service
-- holds: the display name of each account that exists.
structure App where
  device : Device
  accounts : String → Option (Option String)
  view : View
  controllers : Nat
  nameInput : String
  requests : List AuthRequest
  commits : List ProfileChange

def App.launch (accounts : String → Option (Option String)) (session : Option String) : App :=
  {device := {Device.launched with currentUser := session.bind fun uid => (accounts uid).map (User.mk uid)},
   accounts,view := .appearing,controllers := 0,nameInput := "",requests := [],commits := []}

def App.trap (a : App) : App := {a with device := {a.device with running := false}}

def App.after (a : App) : Option App → App
  | some next => next
  | none => a.trap

-- self.dismiss(animated:) in a view controller of the introduction: nothing
-- happens when its presentation is over, or when it was popped.
def App.dismiss (a : App) (self : Controller) : App :=
  {a with view := if self ∈ a.view.stack then .appearing else a.view}

def App.dequeue (a : App) (index : Nat) : App := {a with requests := a.requests.eraseIdx index}

-- What the service does before the closure of a sign-in, a registration or a
-- profile change is called. The session follows the account it is for.
def App.signedIn (a : App) (user : User) : App := {a with device := {a.device with currentUser := some user}}

def App.registered (a : App) (user : User) : App :=
  {a with accounts := Function.update a.accounts user.uid (some user.displayName)}

def User.renamed (user : User) (change : ProfileChange) : User :=
  if user.uid = change.uid then {user with displayName := some change.displayName} else user

def App.renamed (a : App) (change : ProfileChange) : App :=
  {a with accounts := Function.update a.accounts change.uid (some (some change.displayName)),
          device := {a.device with currentUser := a.device.currentUser.map (User.renamed · change)}}

def App.perform (a : App) : Effect → App
  | .performSegue _ => {a with view := .introduction a.controllers,controllers := a.controllers + 1}
  | .presentWelcome => {a with view := .welcome}
  | .commitChanges uid displayName => {a with commits := a.commits ++ [⟨uid,displayName⟩]}
  | .observe _ => a

def App.appear (a : App) : App :=
  match viewDidAppear a.device with
  | some (device,effects) => effects.foldl App.perform {a with device,view := .journey}
  | none => a.trap

def App.greeting (a : App) : View := if a.device.newUser then .welcome else .journey

theorem appear_signedOut {a : App} (nobody : a.device.currentUser = none) : a.appear =
    {a with device := a.device.cleared,view := .introduction a.controllers,
            controllers := a.controllers + 1} := by
  simp [App.appear,viewDidAppear_signedOut nobody,App.perform]

theorem appear_unnamed {a : App} {user : User} (signed : a.device.currentUser = some user)
    (unnamed : user.displayName = none) : a.appear =
      {a with device := {a.device with newUser := false},view := a.greeting,
              commits := a.commits ++ [⟨user.uid,defaultDisplayName⟩]} := by
  cases new : a.device.newUser <;>
    simp [App.appear,viewDidAppear_unnamed signed unnamed,welcome,App.greeting,new,App.perform]

theorem appear_named {a : App} {user : User} {name : String} (signed : a.device.currentUser = some user)
    (named : user.displayName = some name) : a.appear =
      {a with device := {({a.device with newUser := false} : Device).refresh with displayNameLabel := name},
              view := a.greeting} := by
  cases new : a.device.newUser <;>
    simp [App.appear,viewDidAppear_named signed named,welcome,App.greeting,new,App.perform]

@[simp] theorem greeting_flow (a : App) : a.greeting.flow = none := by unfold App.greeting; split <;> rfl

@[simp] theorem renamed_uid (user : User) (change : ProfileChange) : (user.renamed change).uid = user.uid := by
  unfold User.renamed; split <;> rfl

theorem dismiss_cases (a : App) (self : Controller) : self ∈ a.view.stack ∧ (a.dismiss self).view = .appearing ∨
    self ∉ a.view.stack ∧ a.dismiss self = a := by
  by_cases shown : self ∈ a.view.stack
  · exact .inl ⟨shown,if_pos shown⟩
  · exact .inr ⟨shown,by simp [App.dismiss,shown]⟩

@[simp] theorem dismiss_flow (a : App) (self : Controller) :
    (a.dismiss self).view.flow = if self ∈ a.view.stack then none else a.view.flow := by
  unfold App.dismiss
  split <;> rfl

end Journey
