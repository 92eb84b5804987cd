import Journey.App

namespace Journey

def uploadProfilePhoto (d : Device) (image : UIImage) : Option Device := do
  let imageData ← image.jpeg
  let user ← d.currentUser
  return {d with uploads := d.uploads ++ [⟨[user.uid,"profilePhoto.jpg"],imageData,.profilePhoto⟩]}

theorem uploadProfilePhoto_put {d : Device} {image : UIImage} {user : User} {data : List UInt8}
    (encoded : image.jpeg = some data) (signed : d.currentUser = some user) : uploadProfilePhoto d image =
      some {d with uploads := d.uploads ++ [⟨[user.uid,"profilePhoto.jpg"],data,.profilePhoto⟩]} := by
  simp [uploadProfilePhoto,encoded,signed]

theorem uploadProfilePhoto_lost {d : Device} {image : UIImage} (lost : image.jpeg = none ∨ d.currentUser = none) :
    uploadProfilePhoto d image = none := by
  rcases lost with unencoded | nobody
  · simp [uploadProfilePhoto,unencoded]
  · cases encoded : image.jpeg <;> simp [uploadProfilePhoto,encoded,nobody]

def App.displayName (a : App) : Option String := a.device.currentUser.bind User.displayName

def SettingsVC.viewDidLoad (a : App) : Option App := a.device.currentUser.map fun _ => a

def SettingsVC.viewWillAppear (a : App) : Option App := a.displayName.map fun userDisplayName =>
  {a with nameInput := userDisplayName}

def journeyToSettings (a : App) : Option App := do
  let a ← SettingsVC.viewDidLoad {a with view := .settings}
  SettingsVC.viewWillAppear a

def disconnect (a : App) : Option App := a.displayName.map fun displayName =>
  {a with view := .disconnecting ("Log out of " ++ displayName ++ "?")}

-- The completion of Log Out, after its alert is gone. Once the settings are
-- popped nothing is presented, so the second dismissal finds nothing to close.
def logOutCompletion (a : App) (signedOut : Bool) : App :=
  if signedOut then {a with device := {a.device with currentUser := none},view := .appearing}
  else {a with view := .settings}

def commitName (a : App) : App :=
  {a with commits := a.commits ++ (a.device.currentUser.map fun user => ⟨user.uid,a.nameInput⟩).toList}

def SettingsVC.textFieldShouldReturn (a : App) : App := commitName a
def SettingsVC.hideKeyboard (a : App) : App := commitName a

theorem journeyToSettings_named {a : App} {name : String} (named : a.displayName = some name) :
    journeyToSettings a = some {a with view := .settings,nameInput := name} := by
  obtain ⟨user,signed,_⟩ := Option.bind_eq_some_iff.mp named
  simp only [App.displayName,signed,Option.bind_some] at named
  simp [journeyToSettings,SettingsVC.viewDidLoad,SettingsVC.viewWillAppear,App.displayName,signed,named]

theorem journeyToSettings_unnamed {a : App} (unnamed : a.displayName = none) : journeyToSettings a = none := by
  cases signed : a.device.currentUser with
  | none => simp [journeyToSettings,SettingsVC.viewDidLoad,signed]
  | some user =>
      simp only [App.displayName,signed,Option.bind_some] at unnamed
      simp [journeyToSettings,SettingsVC.viewDidLoad,SettingsVC.viewWillAppear,App.displayName,signed,unnamed]

end Journey
