import Journey.App

namespace Journey

inductive LogInResult where
  | error
  | cancelled
  | success
  deriving DecidableEq, Repr

structure AuthUser where
  uid : String
  displayName : Option String
  email : Option String
  deriving DecidableEq, Repr

def loginWithFacebook (a : App) (flow : Nat) : App := {a with requests := a.requests ++ [.logIn flow]}

def useFirebaseLogin (a : App) : App := {a with requests := a.requests ++ [.signInAndRetrieveData]}

-- The closure of logIn. The introduction is closed when Firebase has only been
-- asked.
def logInClosure (a : App) (flow : Nat) : LogInResult → App
  | .error => a
  | .cancelled => a
  | .success => (useFirebaseLogin a).dismiss (.introductionVC flow)

-- The closure of signInAndRetrieveData prints the e-mail, which it unwraps.
def signInAndRetrieveDataClosure (a : App) : Option AuthUser → Option App
  | none => some a
  | some user => user.email.map fun _ => a

end Journey
