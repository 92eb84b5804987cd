import Journey.App

namespace Journey

def submitInformations (a : App) (number : Nat) (email password : String) : App :=
  if email ≠ "" ∧ password ≠ "" then {a with requests := a.requests ++ [.signIn number email password]} else a

-- The closure of signIn. Whatever the error was, registration is tried next.
def signInClosure (a : App) (number : Nat) (email password : String) (ok : Bool) : App :=
  if ok then a.dismiss (.loginVC number) else {a with requests := a.requests ++ [.createUser number email password]}

def createUserClosure (a : App) (number : Nat) (ok : Bool) : App :=
  if ok then App.dismiss {a with device := {a.device with newUser := true}} (.loginVC number) else a

end Journey
