import Journey.Runs
import Journey.IntroductionVC
import Journey.LoginVC
import Journey.SettingsVC

namespace Journey

-- What the user does, a view that comes up, or a closure that is called. The
-- arguments are what the user or the service decides.
inductive Act where
  | viewDidAppear
  | editLater
  | editNow
  | openNewPost
  | closeNewPost
  | showLogin
  | leaveLogin
  | openSettings
  | editNowCompletion
  | settingsWillAppear
  | typeName (name : String)
  | textFieldShouldReturn
  | hideKeyboard
  | leaveSettings
  | disconnect
  | cancel
  | logOut
  | logOutCompletion (signedOut : Bool)
  | loginWithFacebook
  | submitInformations (email password : String)
  | logInDone (index : Nat) (result : LogInResult)
  | signInAndRetrieveDataDone (index : Nat) (result : Option AuthUser)
  | signInDone (index : Nat) (uid : Option String)
  | createUserDone (index : Nat) (uid : Option String)
  | commitDone (index : Nat) (ok : Bool)
  deriving DecidableEq, Repr

def View.move : View → Act → Option View
  | .welcome,.editLater => some .journey
  | .welcome,.editNow => some .editing
  | .journey,.openNewPost => some .newPost
  | .newPost,.closeNewPost => some .appearing
  | .login flow _,.leaveLogin => some (.introduction flow)
  | .settings,.leaveSettings => some .appearing
  | .disconnecting _,.cancel => some .settings
  | .disconnecting _,.logOut => some .loggingOut
  | _,_ => none

-- A credential signs in to the account of its user, made first when there is none.
def App.opened (a : App) (user : AuthUser) : App :=
  match a.accounts user.uid with
  | some displayName => a.signedIn ⟨user.uid,displayName⟩
  | none => (a.registered ⟨user.uid,user.displayName⟩).signedIn ⟨user.uid,user.displayName⟩

-- The answers that the service can give: a sign-in needs an account, a
-- registration makes a new one.
def answer (a : App) : AuthRequest → Act → Option App
  | .logIn flow,.logInDone _ result => some (logInClosure a flow result)
  | .signInAndRetrieveData,.signInAndRetrieveDataDone _ none => some (a.after (signInAndRetrieveDataClosure a none))
  | .signInAndRetrieveData,.signInAndRetrieveDataDone _ (some user) =>
    some ((a.opened user).after (signInAndRetrieveDataClosure (a.opened user) (some user)))
  | .signIn number email password,.signInDone _ none => some (signInClosure a number email password false)
  | .signIn number email password,.signInDone _ (some uid) => (a.accounts uid).map fun displayName =>
      signInClosure (a.signedIn ⟨uid,displayName⟩) number email password true
  | .createUser number _ _,.createUserDone _ none => some (createUserClosure a number false)
  | .createUser number _ _,.createUserDone _ (some uid) => if (a.accounts uid).isNone then
      some (createUserClosure ((a.registered ⟨uid,none⟩).signedIn ⟨uid,none⟩) number true) else none
  | _,_ => none

def complete (a : App) (index : Nat) (act : Act) : Option App :=
  a.requests[index]?.bind fun request => answer (a.dequeue index) request act

def attempt (a : App) : Act → Option App
  | .viewDidAppear => if a.view = .appearing then some a.appear else none
  | .openSettings => if a.view = .journey then some (a.after (journeyToSettings a)) else none
  | .editNowCompletion => if a.view = .editing then some (a.after (journeyToSettings a)) else none
  | .settingsWillAppear => if a.view = .settings then some (a.after (SettingsVC.viewWillAppear a)) else none
  | .typeName name => if a.view = .settings then some {a with nameInput := name} else none
  | .textFieldShouldReturn => if a.view = .settings then some (SettingsVC.textFieldShouldReturn a) else none
  | .hideKeyboard => if a.view = .settings then some (SettingsVC.hideKeyboard a) else none
  | .disconnect => if a.view = .settings then some (a.after (disconnect a)) else none
  | .logOutCompletion signedOut => if a.view = .loggingOut then some (logOutCompletion a signedOut) else none
  | .showLogin => match a.view with
      | .introduction flow => some {a with view := .login flow a.controllers,controllers := a.controllers + 1}
      | _ => none
  | .loginWithFacebook => match a.view with
      | .introduction flow => some (loginWithFacebook a flow)
      | _ => none
  | .submitInformations email password => match a.view with
      | .login _ number => some (submitInformations a number email password)
      | _ => none
  | .logInDone index result => complete a index (.logInDone index result)
  | .signInAndRetrieveDataDone index result => complete a index (.signInAndRetrieveDataDone index result)
  | .signInDone index uid => complete a index (.signInDone index uid)
  | .createUserDone index uid => complete a index (.createUserDone index uid)
  | .commitDone index ok => a.commits[index]?.map fun change =>
      let a := {a with commits := a.commits.eraseIdx index}
      if ok then a.renamed change else a
  | act => (a.view.move act).map fun view => {a with view}

def advance (a : App) (act : Act) : Option App := if a.device.running then attempt a act else none

abbrev sessionRun : App → List Act → Option App := Runs.run advance

def View.Opens (view : View) (act : Act) : Prop :=
  view = .journey ∧ act = .openSettings ∨ view = .editing ∧ act = .editNowCompletion ∨
    view = .settings ∧ act = .settingsWillAppear

-- The same behaviour as rules, one for each way an act can go.
inductive Advances (a : App) : Act → App → Prop where
  | appearOut (due : a.view = .appearing) (nobody : a.device.currentUser = none) : Advances a .viewDidAppear
      {a with device := a.device.cleared,view := .introduction a.controllers,controllers := a.controllers + 1}
  | appearUnnamed {user : User} (due : a.view = .appearing) (signed : a.device.currentUser = some user)
      (unnamed : user.displayName = none) : Advances a .viewDidAppear
        {a with device := {a.device with newUser := false},view := a.greeting,
                commits := a.commits ++ [⟨user.uid,defaultDisplayName⟩]}
  | appearNamed {user : User} {name : String} (due : a.view = .appearing) (signed : a.device.currentUser = some user)
      (named : user.displayName = some name) : Advances a .viewDidAppear
        {a with device := {({a.device with newUser := false} : Device).refresh with displayNameLabel := name},
                view := a.greeting}
  | move {act : Act} {view : View} (moved : a.view.move act = some view) : Advances a act {a with view}
  | settings {act : Act} {name : String} (opens : a.view.Opens act) (named : a.displayName = some name) :
      Advances a act {a with view := .settings,nameInput := name}
  | disconnect {name : String} (shown : a.view = .settings) (named : a.displayName = some name) :
      Advances a .disconnect {a with view := .disconnecting ("Log out of " ++ name ++ "?")}
  | unwrapTrap {act : Act} (shown : a.view.Opens act ∨ a.view = .settings ∧ act = .disconnect)
      (unnamed : a.displayName = none) : Advances a act a.trap
  | typeName {name : String} (shown : a.view = .settings) : Advances a (.typeName name) {a with nameInput := name}
  | commitName {act : Act} (shown : a.view = .settings) (leaves : act = .textFieldShouldReturn ∨ act = .hideKeyboard) :
      Advances a act (commitName a)
  | loggedOut (due : a.view = .loggingOut) : Advances a (.logOutCompletion true)
      {a with device := {a.device with currentUser := none},view := .appearing}
  | logOutFailed (due : a.view = .loggingOut) : Advances a (.logOutCompletion false) {a with view := .settings}
  | showLogin {flow : Nat} (shown : a.view = .introduction flow) : Advances a .showLogin
      {a with view := .login flow a.controllers,controllers := a.controllers + 1}
  | loginWithFacebook {flow : Nat} (shown : a.view = .introduction flow) :
      Advances a .loginWithFacebook {a with requests := a.requests ++ [.logIn flow]}
  | submitEmpty {flow number : Nat} {email password : String} (shown : a.view = .login flow number)
      (empty : email = "" ∨ password = "") : Advances a (.submitInformations email password) a
  | submit {flow number : Nat} {email password : String} (shown : a.view = .login flow number) (filled : email ≠ "")
      (secret : password ≠ "") : Advances a (.submitInformations email password)
        {a with requests := a.requests ++ [.signIn number email password]}
  | logInFailed {index flow : Nat} {result : LogInResult} (pending : a.requests[index]? = some (.logIn flow))
      (failed : result ≠ .success) : Advances a (.logInDone index result) (a.dequeue index)
  | logIn {index flow : Nat} (pending : a.requests[index]? = some (.logIn flow)) :
      Advances a (.logInDone index .success) ((useFirebaseLogin (a.dequeue index)).dismiss (.introductionVC flow))
  | credentialFailed {index : Nat} (pending : a.requests[index]? = some .signInAndRetrieveData) :
      Advances a (.signInAndRetrieveDataDone index none) (a.dequeue index)
  | credential {index : Nat} {user : AuthUser} (pending : a.requests[index]? = some .signInAndRetrieveData)
      (reachable : user.email ≠ none) :
      Advances a (.signInAndRetrieveDataDone index (some user)) ((a.dequeue index).opened user)
  | credentialTrap {index : Nat} {user : AuthUser} (pending : a.requests[index]? = some .signInAndRetrieveData)
      (unreachable : user.email = none) :
      Advances a (.signInAndRetrieveDataDone index (some user)) ((a.dequeue index).opened user).trap
  | signInFailed {index number : Nat} {email password : String}
      (pending : a.requests[index]? = some (.signIn number email password)) : Advances a (.signInDone index none)
        {a.dequeue index with requests := (a.dequeue index).requests ++ [.createUser number email password]}
  | signIn {index number : Nat} {email password uid : String} {displayName : Option String}
      (pending : a.requests[index]? = some (.signIn number email password))
      (found : a.accounts uid = some displayName) : Advances a (.signInDone index (some uid))
        (((a.dequeue index).signedIn ⟨uid,displayName⟩).dismiss (.loginVC number))
  | createUserFailed {index number : Nat} {email password : String}
      (pending : a.requests[index]? = some (.createUser number email password)) :
      Advances a (.createUserDone index none) (a.dequeue index)
  | createUser {index number : Nat} {email password uid : String}
      (pending : a.requests[index]? = some (.createUser number email password)) (fresh : a.accounts uid = none) :
      Advances a (.createUserDone index (some uid)) (createUserClosure
        (((a.dequeue index).registered ⟨uid,none⟩).signedIn ⟨uid,none⟩) number true)
  | commitFailed {index : Nat} {change : ProfileChange} (pending : a.commits[index]? = some change) :
      Advances a (.commitDone index false) {a with commits := a.commits.eraseIdx index}
  | commit {index : Nat} {change : ProfileChange} (pending : a.commits[index]? = some change) :
      Advances a (.commitDone index true) (App.renamed {a with commits := a.commits.eraseIdx index} change)

variable {a b : App}

theorem journeyToSettings_advances {act : Act} (opens : a.view.Opens act) :
    Advances a act (a.after (journeyToSettings a)) := by
  cases named : a.displayName with
  | none => rw [journeyToSettings_unnamed named]; exact .unwrapTrap (.inl opens) named
  | some name => rw [journeyToSettings_named named]; exact .settings opens named

theorem settingsWillAppear_advances (shown : a.view = .settings) :
    Advances a .settingsWillAppear (a.after (SettingsVC.viewWillAppear a)) := by
  have opens : a.view.Opens .settingsWillAppear := .inr (.inr ⟨shown,rfl⟩)
  cases named : a.displayName with
  | none => simpa [SettingsVC.viewWillAppear,named,App.after] using Advances.unwrapTrap (.inl opens) named
  | some name => simpa [SettingsVC.viewWillAppear,named,App.after,← shown] using Advances.settings opens named

theorem disconnect_advances (shown : a.view = .settings) :
    Advances a .disconnect (a.after (disconnect a)) := by
  cases named : a.displayName with
  | none => simpa [disconnect,named,App.after] using Advances.unwrapTrap (.inr ⟨shown,rfl⟩) named
  | some name => simpa [disconnect,named,App.after] using Advances.disconnect shown named

theorem appear_advances (due : a.view = .appearing) : Advances a .viewDidAppear a.appear := by
  cases signed : a.device.currentUser with
  | none => rw [appear_signedOut signed]; exact .appearOut due signed
  | some user =>
      cases named : user.displayName with
      | none => rw [appear_unnamed signed named]; exact .appearUnnamed due signed named
      | some name => rw [appear_named signed named]; exact .appearNamed due signed named

theorem complete_advances {index : Nat} {act : Act}
    (place : (∃ result, act = .logInDone index result) ∨ (∃ result, act = .signInAndRetrieveDataDone index result) ∨
      (∃ uid, act = .signInDone index uid) ∨ ∃ uid, act = .createUserDone index uid)
    (completed : complete a index act = some b) : Advances a act b := by
  obtain ⟨request,pending,answered⟩ := Option.bind_eq_some_iff.mp completed
  rcases place with ⟨result,rfl⟩ | ⟨result,rfl⟩ | ⟨uid,rfl⟩ | ⟨uid,rfl⟩
  · cases request with
    | logIn flow =>
        cases answered
        cases result with
        | error | cancelled => exact .logInFailed pending (by decide)
        | success => exact .logIn pending
    | _ => cases answered
  · cases request with
    | signInAndRetrieveData =>
        cases result with
        | none => cases answered; exact .credentialFailed pending
        | some user =>
            cases answered
            cases email : user.email with
            | none => simpa [signInAndRetrieveDataClosure,email,App.after] using Advances.credentialTrap pending email
            | some address =>
                have reachable : user.email ≠ none := by simp [email]
                simpa [signInAndRetrieveDataClosure,email,App.after] using Advances.credential pending reachable
    | _ => cases result <;> cases answered
  · cases request with
    | signIn number email password =>
        cases uid with
        | none => cases answered; exact .signInFailed pending
        | some uid =>
            obtain ⟨displayName,found,rfl⟩ := Option.map_eq_some_iff.mp answered
            exact .signIn pending found
    | _ => cases uid <;> cases answered
  · cases request with
    | createUser number email password =>
        cases uid with
        | none => cases answered; exact .createUserFailed pending
        | some uid =>
            obtain ⟨fresh,same⟩ := Option.ite_none_right_eq_some.mp answered
            cases same
            exact .createUser pending (Option.isNone_iff_eq_none.mp fresh)
    | _ => cases uid <;> cases answered

theorem attempt_sound {act : Act} (acted : attempt a act = some b) : Advances a act b := by
  cases act with
  | viewDidAppear =>
      obtain ⟨due,rfl⟩ := by simpa [attempt] using acted
      exact appear_advances due
  | openSettings =>
      obtain ⟨shown,rfl⟩ := by simpa [attempt] using acted
      exact journeyToSettings_advances (.inl ⟨shown,rfl⟩)
  | editNowCompletion =>
      obtain ⟨shown,rfl⟩ := by simpa [attempt] using acted
      exact journeyToSettings_advances (.inr (.inl ⟨shown,rfl⟩))
  | settingsWillAppear =>
      obtain ⟨shown,rfl⟩ := by simpa [attempt] using acted
      exact settingsWillAppear_advances shown
  | typeName name =>
      obtain ⟨shown,rfl⟩ := by simpa [attempt] using acted
      exact .typeName shown
  | textFieldShouldReturn =>
      obtain ⟨shown,rfl⟩ := by simpa [attempt] using acted
      exact .commitName shown (.inl rfl)
  | hideKeyboard =>
      obtain ⟨shown,rfl⟩ := by simpa [attempt] using acted
      exact .commitName shown (.inr rfl)
  | disconnect =>
      obtain ⟨shown,rfl⟩ := by simpa [attempt] using acted
      exact disconnect_advances shown
  | logOutCompletion signedOut =>
      obtain ⟨due,rfl⟩ := by simpa [attempt] using acted
      cases signedOut with
      | false => exact .logOutFailed due
      | true => exact .loggedOut due
  | showLogin =>
      cases shown : a.view with
      | introduction flow =>
          obtain rfl := by simpa [attempt,shown] using acted
          exact .showLogin shown
      | _ => simp [attempt,shown] at acted
  | loginWithFacebook =>
      cases shown : a.view with
      | introduction flow =>
          obtain rfl := by simpa [attempt,shown] using acted
          exact .loginWithFacebook shown
      | _ => simp [attempt,shown] at acted
  | submitInformations email password =>
      cases shown : a.view with
      | login flow number =>
          obtain rfl := by simpa [attempt,shown] using acted
          by_cases filled : email ≠ "" ∧ password ≠ ""
          · rw [submitInformations,if_pos filled]
            exact .submit shown filled.1 filled.2
          · rw [submitInformations,if_neg filled]
            exact .submitEmpty shown (by simpa [or_iff_not_imp_left] using filled)
      | _ => simp [attempt,shown] at acted
  | logInDone index result => exact complete_advances (.inl ⟨result,rfl⟩) acted
  | signInAndRetrieveDataDone index result => exact complete_advances (.inr (.inl ⟨result,rfl⟩)) acted
  | signInDone index uid => exact complete_advances (.inr (.inr (.inl ⟨uid,rfl⟩))) acted
  | createUserDone index uid => exact complete_advances (.inr (.inr (.inr ⟨uid,rfl⟩))) acted
  | commitDone index ok =>
      obtain ⟨change,pending,rfl⟩ := Option.map_eq_some_iff.mp acted
      cases ok with
      | false => exact .commitFailed pending
      | true => exact .commit pending
  | _ =>
      obtain ⟨view,moved,rfl⟩ := Option.map_eq_some_iff.mp acted
      exact .move moved

theorem attempt_move {act : Act} {view : View} (moved : a.view.move act = some view) :
    attempt a act = some {a with view} := by
  cases act with
  | editLater | editNow | openNewPost | closeNewPost | leaveLogin | leaveSettings | cancel | logOut =>
      simp [attempt,moved]
  | _ => cases shown : a.view <;> simp [View.move,shown] at moved

theorem attempt_complete {act : Act} (rule : Advances a act b) : attempt a act = some b := by
  cases rule with
  | appearOut due nobody => simp [attempt,due,appear_signedOut nobody]
  | appearUnnamed due signed unnamed => simp [attempt,due,appear_unnamed signed unnamed]
  | appearNamed due signed named => simp [attempt,due,appear_named signed named]
  | move moved => exact attempt_move moved
  | settings opens named =>
      rcases opens with ⟨shown,rfl⟩ | ⟨shown,rfl⟩ | ⟨shown,rfl⟩
      · simp [attempt,shown,journeyToSettings_named named,App.after]
      · simp [attempt,shown,journeyToSettings_named named,App.after]
      · have same : ({a with view := .settings} : App) = a := by rw [← shown]
        rw [← same] at named
        rw [← same]
        simp [attempt,SettingsVC.viewWillAppear,named,App.after]
  | disconnect shown named => simp [attempt,shown,disconnect,named,App.after]
  | unwrapTrap shown unnamed =>
      rcases shown with (⟨shown,rfl⟩ | ⟨shown,rfl⟩ | ⟨shown,rfl⟩) | ⟨shown,rfl⟩
      · simp [attempt,shown,journeyToSettings_unnamed unnamed,App.after]
      · simp [attempt,shown,journeyToSettings_unnamed unnamed,App.after]
      · simp [attempt,shown,SettingsVC.viewWillAppear,unnamed,App.after]
      · simp [attempt,shown,disconnect,unnamed,App.after]
  | typeName shown => simp [attempt,shown]
  | commitName shown leaves =>
      rcases leaves with rfl | rfl
      · simp [attempt,shown,SettingsVC.textFieldShouldReturn]
      · simp [attempt,shown,SettingsVC.hideKeyboard]
  | loggedOut due => simp [attempt,due,logOutCompletion]
  | logOutFailed due => simp [attempt,due,logOutCompletion]
  | showLogin shown => simp [attempt,shown]
  | loginWithFacebook shown => simp [attempt,shown,loginWithFacebook]
  | submitEmpty shown empty =>
      rcases empty with rfl | rfl
      · simp [attempt,shown,submitInformations]
      · simp [attempt,shown,submitInformations]
  | submit shown filled secret => simp [attempt,shown,submitInformations,filled,secret]
  | @logInFailed index flow result pending failed =>
      cases result with
      | error | cancelled => simp [attempt,complete,pending,answer,logInClosure]
      | success => exact absurd rfl failed
  | logIn pending => simp [attempt,complete,pending,answer,logInClosure]
  | credentialFailed pending => simp [attempt,complete,pending,answer,signInAndRetrieveDataClosure,App.after]
  | credential pending reachable =>
      obtain ⟨email,given⟩ := Option.ne_none_iff_exists'.mp reachable
      simp [attempt,complete,pending,answer,signInAndRetrieveDataClosure,App.after,given]
  | credentialTrap pending unreachable =>
      simp [attempt,complete,pending,answer,signInAndRetrieveDataClosure,App.after,unreachable]
  | signInFailed pending => simp [attempt,complete,pending,answer,signInClosure]
  | signIn pending found => simp [attempt,complete,pending,answer,signInClosure,App.dequeue,found]
  | createUserFailed pending => simp [attempt,complete,pending,answer,createUserClosure]
  | createUser pending fresh => simp [attempt,complete,pending,answer,App.dequeue,fresh]
  | commitFailed pending => simp [attempt,pending]
  | commit pending => simp [attempt,pending]

theorem advance_iff {act : Act} : advance a act = some b ↔ a.device.running = true ∧ Advances a act b := by
  simp only [advance,Option.ite_none_right_eq_some]
  exact and_congr_right fun _ => ⟨attempt_sound,attempt_complete⟩

theorem move_flow {view next : View} (moved : view.move act = some next) :
    view ≠ .appearing ∧ (next = .appearing ∨ next.flow = view.flow) := by
  unfold View.move at moved
  split at moved <;> cases moved
  all_goals simp [View.flow]

theorem displayName_signed {name : String} (named : a.displayName = some name) : a.device.currentUser ≠ none := by
  obtain ⟨user,signed,_⟩ := Option.bind_eq_some_iff.mp named
  simp [signed]

@[simp] theorem opened_view (user : AuthUser) : (a.opened user).view = a.view := by
  unfold App.opened; split <;> rfl

theorem opened_signed (user : AuthUser) : (a.opened user).device.currentUser ≠ none := by
  unfold App.opened; split <;> simp [App.signedIn]

theorem opened_device (user : AuthUser) :
    ∃ session, (a.opened user).device = {a.device with currentUser := some session} := by
  unfold App.opened
  split <;> exact ⟨_,rfl⟩

theorem renamed_device (change : ProfileChange) : (a.renamed change).device = a.device ∨
    ∃ user, a.device.currentUser = some user ∧ (a.renamed change).device =
      {a.device with currentUser := some {user with displayName := some change.displayName}} := by
  have kept (same : a.device.currentUser.map (User.renamed · change) = a.device.currentUser) :
      (a.renamed change).device = a.device := by rw [App.renamed,same]
  cases signed : a.device.currentUser with
  | none => exact .inl (kept (by simp [signed]))
  | some user =>
      by_cases same : user.uid = change.uid
      · exact .inr ⟨user,rfl,by simp [App.renamed,User.renamed,signed,same]⟩
      · exact .inl (kept (by simp [User.renamed,signed,same]))

end Journey
