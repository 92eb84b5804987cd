import Journey.Session
import Journey.Tickets

namespace Journey

-- The fields are those of the LoginVC that is on the screen, whose number a tap has.
inductive AccountEvent where
  | editEmail (text : String)
  | editPassword (text : String)
  | submitInformations (number : Nat)
  | signInDone (index : Nat) (uid : Option String)
  | createUserDone (index : Nat) (uid : Option String)
  | viewDidAppear
  | signOut
  deriving DecidableEq, Repr

-- `tickets` numbers each pending request by the tap that it comes from.
structure Terminal where
  app : App
  emailInput : String
  passwordInput : String
  taps : Nat
  tickets : List Nat

-- Any number of devices over one authentication service: the password and the
-- account of each email, and the display name of each account.
structure Accounts (D : Type) where
  store : String → Option (String × String)
  accounts : String → Option (Option String)
  terminal : D → Terminal

def Accounts.launch {D : Type} (store : String → Option (String × String))
    (accounts : String → Option (Option String)) (session : D → Option String) : Accounts D :=
  ⟨store,accounts,fun x => ⟨App.launch accounts (session x),"","",0,[]⟩⟩

variable {D : Type}

def Accounts.app (w : Accounts D) (x : D) : App := {(w.terminal x).app with accounts := w.accounts}

def Terminal.after (t : Terminal) (prior next : App) (kept : List Nat) (ticket : Nat) : Terminal :=
  {t with app := next,tickets := kept ++ List.replicate (next.requests.length - prior.requests.length) ticket}

def Accounts.Permits (w : Accounts D) : AuthRequest → Option String → Prop
  | .signIn _ email password,some uid => w.store email = some (password,uid)
  | .createUser _ email _,some _ => w.store email = none
  | _,_ => True

instance (w : Accounts D) : (request : AuthRequest) → (uid : Option String) → Decidable (w.Permits request uid)
  | .signIn _ email password,some uid => inferInstanceAs (Decidable (w.store email = some (password,uid)))
  | .createUser _ email _,some _ => inferInstanceAs (Decidable (w.store email = none))
  | .signIn _ _ _,none | .createUser _ _ _,none => .isTrue trivial
  | .logIn _,none | .logIn _,some _ | .signInAndRetrieveData,none | .signInAndRetrieveData,some _ => .isTrue trivial

def Accounts.stored (w : Accounts D) : AuthRequest → Option String → String → Option (String × String)
  | .createUser _ email password,some uid => Function.update w.store email (some (password,uid))
  | _,_ => w.store

variable [DecidableEq D]

def Accounts.put (w : Accounts D) (x : D) (t : Terminal) : Accounts D :=
  {w with terminal := Function.update w.terminal x t}

def Accounts.completion (w : Accounts D) (x : D) (index : Nat) (act : Act) (uid : Option String) :
    Option (Accounts D) := do
  let request ← (w.terminal x).app.requests[index]?
  let ticket ← (w.terminal x).tickets[index]?
  if w.Permits request uid then
    let prior := (w.app x).dequeue index
    let next ← answer prior request act
    return Accounts.put {w with store := w.stored request uid,accounts := next.accounts} x
      ((w.terminal x).after prior next ((w.terminal x).tickets.eraseIdx index) ticket)
  else none

def Accounts.step (w : Accounts D) : D × AccountEvent → Option (Accounts D)
  | (x,.editEmail text) => some (w.put x {w.terminal x with emailInput := text})
  | (x,.editPassword text) => some (w.put x {w.terminal x with passwordInput := text})
  | (x,.submitInformations number) =>
    let t := w.terminal x
    let next := submitInformations (w.app x) number t.emailInput t.passwordInput
    some (w.put x {t.after (w.app x) next t.tickets t.taps with taps := t.taps + 1})
  | (x,.signInDone index uid) => w.completion x index (.signInDone index uid) uid
  | (x,.createUserDone index uid) => w.completion x index (.createUserDone index uid) uid
  | (x,.viewDidAppear) => some (w.put x {w.terminal x with app := (w.app x).appear})
  | (x,.signOut) => some (w.put x {w.terminal x with app := logOutCompletion (w.app x) true})

-- The same behaviour as rules, one for each way an event can go on a device.
inductive AccountStep (w : Accounts D) (x : D) : AccountEvent → Accounts D → Prop where
  | editEmail {text : String} : AccountStep w x (.editEmail text) (w.put x {w.terminal x with emailInput := text})
  | editPassword {text : String} :
      AccountStep w x (.editPassword text) (w.put x {w.terminal x with passwordInput := text})
  | tapEmpty {number : Nat} (empty : (w.terminal x).emailInput = "" ∨ (w.terminal x).passwordInput = "") :
      AccountStep w x (.submitInformations number)
        (w.put x {w.terminal x with app := w.app x,taps := (w.terminal x).taps + 1})
  | tap {number : Nat} (filled : (w.terminal x).emailInput ≠ "") (secret : (w.terminal x).passwordInput ≠ "") :
      AccountStep w x (.submitInformations number) (w.put x {w.terminal x with
        app := {w.app x with requests := (w.terminal x).app.requests ++
          [.signIn number (w.terminal x).emailInput (w.terminal x).passwordInput]}
        tickets := (w.terminal x).tickets ++ [(w.terminal x).taps]
        taps := (w.terminal x).taps + 1})
  | signInFailed {index number n : Nat} {email password : String}
      (pending : (w.terminal x).app.requests[index]? = some (.signIn number email password))
      (numbered : (w.terminal x).tickets[index]? = some n) :
      AccountStep w x (.signInDone index none) (w.put x {w.terminal x with
        app := {w.app x with requests := (w.terminal x).app.requests.eraseIdx index ++
          [.createUser number email password]}
        tickets := (w.terminal x).tickets.eraseIdx index ++ [n]})
  | signedIn {index number n : Nat} {email password uid : String} {name : Option String}
      (pending : (w.terminal x).app.requests[index]? = some (.signIn number email password))
      (numbered : (w.terminal x).tickets[index]? = some n) (stored : w.store email = some (password,uid))
      (named : w.accounts uid = some name) :
      AccountStep w x (.signInDone index (some uid)) (w.put x {w.terminal x with
        app := (((w.app x).dequeue index).signedIn ⟨uid,name⟩).dismiss (.loginVC number)
        tickets := (w.terminal x).tickets.eraseIdx index})
  | registrationFailed {index number n : Nat} {email password : String}
      (pending : (w.terminal x).app.requests[index]? = some (.createUser number email password))
      (numbered : (w.terminal x).tickets[index]? = some n) :
      AccountStep w x (.createUserDone index none) (w.put x {w.terminal x with
        app := (w.app x).dequeue index
        tickets := (w.terminal x).tickets.eraseIdx index})
  | registered {index number n : Nat} {email password uid : String}
      (pending : (w.terminal x).app.requests[index]? = some (.createUser number email password))
      (numbered : (w.terminal x).tickets[index]? = some n) (free : w.store email = none)
      (fresh : w.accounts uid = none) :
      AccountStep w x (.createUserDone index (some uid)) (Accounts.put
        {w with store := Function.update w.store email (some (password,uid))
                accounts := Function.update w.accounts uid (some none)} x
        {w.terminal x with
          app := createUserClosure ((((w.app x).dequeue index).registered ⟨uid,none⟩).signedIn ⟨uid,none⟩) number true
          tickets := (w.terminal x).tickets.eraseIdx index})
  | viewDidAppear : AccountStep w x .viewDidAppear (w.put x {w.terminal x with app := (w.app x).appear})
  | signOut : AccountStep w x .signOut (w.put x {w.terminal x with app := logOutCompletion (w.app x) true})

variable {w next : Accounts D} {x y : D} {event : AccountEvent}

theorem completion_parts {index : Nat} {act : Act} {uid : Option String}
    (taken : w.completion x index act uid = some next) :
    ∃ request n after, (w.terminal x).app.requests[index]? = some request ∧ (w.terminal x).tickets[index]? = some n ∧
      w.Permits request uid ∧ answer ((w.app x).dequeue index) request act = some after ∧
      next = Accounts.put {w with store := w.stored request uid,accounts := after.accounts} x
        ((w.terminal x).after ((w.app x).dequeue index) after ((w.terminal x).tickets.eraseIdx index) n) := by
  obtain ⟨request,pending,taken⟩ := Option.bind_eq_some_iff.mp taken
  obtain ⟨n,numbered,taken⟩ := Option.bind_eq_some_iff.mp taken
  obtain ⟨permits,taken⟩ := Option.ite_none_right_eq_some.mp taken
  obtain ⟨after,answered,same⟩ := Option.bind_eq_some_iff.mp taken
  exact ⟨request,n,after,pending,numbered,permits,answered,(Option.some.inj same).symm⟩

theorem after_same (t : Terminal) {prior next : App} (kept : List Nat) (n : Nat)
    (same : next.requests = prior.requests) : t.after prior next kept n = {t with app := next,tickets := kept} := by
  simp [Terminal.after,same]

theorem after_added (t : Terminal) {prior next : App} {request : AuthRequest} (kept : List Nat) (n : Nat)
    (added : next.requests = prior.requests ++ [request]) :
    t.after prior next kept n = {t with app := next,tickets := kept ++ [n]} := by
  simp [Terminal.after,added]

theorem step_rule (taken : w.step (x,event) = some next) : AccountStep w x event next := by
  cases event with
  | editEmail text => cases taken; exact .editEmail
  | editPassword text => cases taken; exact .editPassword
  | submitInformations number =>
      cases taken
      by_cases filled : (w.terminal x).emailInput ≠ "" ∧ (w.terminal x).passwordInput ≠ ""
      · rw [submitInformations,if_pos filled,after_added _ _ _ rfl]
        exact .tap filled.1 filled.2
      · rw [submitInformations,if_neg filled,after_same _ _ _ rfl]
        exact .tapEmpty (by simpa only [not_and_or,not_not] using filled)
  | signInDone index uid =>
      obtain ⟨request,n,after,pending,numbered,permits,answered,rfl⟩ := completion_parts taken
      cases request with
      | signIn number email password =>
          cases uid with
          | none =>
              cases answered
              rw [after_added _ _ _ rfl]
              exact .signInFailed pending numbered
          | some uid =>
              obtain ⟨name,named,rfl⟩ := Option.map_eq_some_iff.mp answered
              have same : (signInClosure (((w.app x).dequeue index).signedIn ⟨uid,name⟩) number email password
                  true).requests = ((w.app x).dequeue index).requests := rfl
              rw [after_same _ _ _ same]
              exact .signedIn pending numbered permits named
      | _ => cases uid <;> cases answered
  | createUserDone index uid =>
      obtain ⟨request,n,after,pending,numbered,permits,answered,rfl⟩ := completion_parts taken
      cases request with
      | createUser number email password =>
          cases uid with
          | none =>
              cases answered
              have same : (createUserClosure ((w.app x).dequeue index) number false).requests =
                  ((w.app x).dequeue index).requests := rfl
              rw [after_same _ _ _ same]
              exact .registrationFailed pending numbered
          | some uid =>
              obtain ⟨fresh,made⟩ := Option.ite_none_right_eq_some.mp answered
              cases made
              have same : (createUserClosure ((((w.app x).dequeue index).registered ⟨uid,none⟩).signedIn ⟨uid,none⟩)
                  number true).requests = ((w.app x).dequeue index).requests := rfl
              rw [after_same _ _ _ same]
              exact .registered pending numbered permits (Option.isNone_iff_eq_none.mp fresh)
      | _ => cases uid <;> cases answered
  | viewDidAppear => cases taken; exact .viewDidAppear
  | signOut => cases taken; exact .signOut

def OfTap (x : D) (n : Nat) (w : Accounts D) : D × AccountEvent → Prop
  | (y,.submitInformations _) => y = x ∧ (w.terminal x).taps = n
  | (y,.signInDone index _) | (y,.createUserDone index _) => y = x ∧ (w.terminal x).tickets[index]? = some n
  | _ => False

def AccountEvent.succeeds : AccountEvent → Prop
  | .signInDone _ (some _) | .createUserDone _ (some _) => True
  | _ => False

def Succeeds (x : D) (n : Nat) (w : Accounts D) (event : D × AccountEvent) : Prop :=
  OfTap x n w event ∧ event.2.succeeds

def Tapped (x : D) (n : Nat) (email password : String) (w : Accounts D) (event : D × AccountEvent) : Prop :=
  (∃ number, event = (x,.submitInformations number)) ∧ (w.terminal x).taps = n ∧
    (w.terminal x).emailInput = email ∧ (w.terminal x).passwordInput = password

def SignInFailed (x : D) (n : Nat) (w : Accounts D) (event : D × AccountEvent) : Prop :=
  ∃ index, event = (x,.signInDone index none) ∧ (w.terminal x).tickets[index]? = some n

def Registers (x : D) (_ : Accounts D) (event : D × AccountEvent) : Prop :=
  ∃ index uid, event = (x,.createUserDone index (some uid))

def AppearsSigned (x : D) (w : Accounts D) (event : D × AccountEvent) : Prop :=
  event = (x,.viewDidAppear) ∧ (w.terminal x).app.device.currentUser ≠ none

def Traced (origin : Accounts D) (past : List (D × AccountEvent)) (x : D) (n : Nat) : AuthRequest → Prop
  | .signIn _ email password => email ≠ "" ∧ password ≠ "" ∧
      Runs.Occurs Accounts.step origin past (Tapped x n email password)
  | .createUser _ email password => email ≠ "" ∧ password ≠ "" ∧
      Runs.Before Accounts.step origin past (Tapped x n email password) (SignInFailed x n)
  | _ => True

structure Tracked (origin : Accounts D) (past : List (D × AccountEvent)) (w : Accounts D) : Prop where
  tickets : ∀ x, Tickets.Valid (w.terminal x).tickets (w.terminal x).app.requests (w.terminal x).taps
  requests : ∀ x n request, Tickets.Holds (w.terminal x).tickets (w.terminal x).app.requests n request →
    Traced origin past x n request

variable {origin : Accounts D} {past : List (D × AccountEvent)}

theorem Traced.extend {n : Nat} {request : AuthRequest} (traced : Traced origin past x n request)
    (rest : List (D × AccountEvent)) : Traced origin (past ++ rest) x n request := by
  cases request with
  | signIn number email password => exact ⟨traced.1,traced.2.1,traced.2.2.extend rest⟩
  | createUser number email password => exact ⟨traced.1,traced.2.1,traced.2.2.extend rest⟩
  | _ => trivial

theorem tracked_put {t : Terminal} {e : D × AccountEvent} (tracked : Tracked origin past w)
    (changed : next.terminal = Function.update w.terminal x t)
    (valid : Tickets.Valid t.tickets t.app.requests t.taps)
    (traced : ∀ n request, Tickets.Holds t.tickets t.app.requests n request → Traced origin (past ++ [e]) x n request) :
    Tracked origin (past ++ [e]) next := by
  constructor
  · intro y
    by_cases same : y = x
    · subst same
      rw [changed,Function.update_self]
      exact valid
    · rw [changed,Function.update_of_ne same]
      exact tracked.tickets y
  · intro y n request
    by_cases same : y = x
    · subst same
      rw [changed,Function.update_self]
      exact traced n request
    · rw [changed,Function.update_of_ne same]
      exact fun holds => (tracked.requests y n request holds).extend [e]

theorem appear_requests (a : App) : a.appear.requests = a.requests := by
  cases signed : a.device.currentUser with
  | none => rw [appear_signedOut signed]
  | some user =>
      cases named : user.displayName with
      | none => rw [appear_unnamed signed named]
      | some name => rw [appear_named signed named]

theorem tracked_kept {t : Terminal} {e : D × AccountEvent} (tracked : Tracked origin past w)
    (changed : next.terminal = Function.update w.terminal x t) (tickets : t.tickets = (w.terminal x).tickets)
    (requests : t.app.requests = (w.terminal x).app.requests) (taps : (w.terminal x).taps ≤ t.taps) :
    Tracked origin (past ++ [e]) next := by
  refine tracked_put tracked changed ?_ ?_
  · rw [tickets,requests]
    exact (tracked.tickets x).mono taps
  · rw [tickets,requests]
    exact fun n request holds => (tracked.requests x n request holds).extend [e]

theorem tracked_called {t : Terminal} {e : D × AccountEvent} {index : Nat} (tracked : Tracked origin past w)
    (changed : next.terminal = Function.update w.terminal x t)
    (tickets : t.tickets = (w.terminal x).tickets.eraseIdx index)
    (requests : t.app.requests = (w.terminal x).app.requests.eraseIdx index) (taps : t.taps = (w.terminal x).taps) :
    Tracked origin (past ++ [e]) next := by
  refine tracked_put tracked changed ?_ ?_
  · rw [tickets,requests,taps]
    exact (tracked.tickets x).call index
  · rw [tickets,requests]
    exact fun n request holds => (tracked.requests x n request (Tickets.holds_call holds)).extend [e]

theorem step_tracked (reached : Runs.run Accounts.step origin past = some w) (tracked : Tracked origin past w)
    (rule : AccountStep w x event next) : Tracked origin (past ++ [(x,event)]) next := by
  have valid := tracked.tickets x
  cases rule with
  | editEmail | editPassword | signOut => exact tracked_kept tracked rfl rfl rfl (Nat.le_refl _)
  | viewDidAppear => exact tracked_kept tracked rfl rfl (appear_requests _) (Nat.le_refl _)
  | tapEmpty => exact tracked_kept tracked rfl rfl rfl (Nat.le_succ _)
  | @tap number filled secret =>
      have fresh : (w.terminal x).taps ∉ (w.terminal x).tickets := fun member =>
        Nat.lt_irrefl _ (valid.below _ member)
      refine tracked_put tracked rfl ((valid.mono (Nat.le_succ _)).issue fresh (Nat.lt_succ_self _)) ?_
      intro n request holds
      rcases (Tickets.holds_issue valid).mp holds with old | ⟨rfl,rfl⟩
      · exact (tracked.requests x n request old).extend _
      · exact ⟨filled,secret,(Runs.occurs_snoc reached).mpr (.inr ⟨⟨number,rfl⟩,rfl,rfl,rfl⟩)⟩
  | @signInFailed index number n email password pending numbered =>
      have gone : n ∉ (w.terminal x).tickets.eraseIdx index := fun member => ((valid.mem_call numbered).mp member).2 rfl
      have below := valid.below n (List.mem_of_getElem? numbered)
      refine tracked_put tracked rfl ((valid.call index).issue gone below) ?_
      intro m request holds
      rcases (Tickets.holds_issue (valid.call index)).mp holds with old | ⟨rfl,rfl⟩
      · exact (tracked.requests x m request (Tickets.holds_call old)).extend _
      · obtain ⟨filled,secret,tapped⟩ := tracked.requests x m _ ⟨index,numbered,pending⟩
        exact ⟨filled,secret,(Runs.before_snoc reached).mpr (.inr ⟨⟨index,rfl,numbered⟩,tapped⟩)⟩
  | @signedIn index | @registrationFailed index | @registered index => exact tracked_called tracked rfl rfl rfl rfl

theorem rule_store (rule : AccountStep w x event next) {email : String} {pair : String × String}
    (stored : w.store email = some pair) : next.store email = some pair := by
  cases rule with
  | @registered index number n address password uid pending numbered free fresh =>
      have other : email ≠ address := by
        intro same
        subst same
        cases stored.symm.trans free
      exact (Function.update_of_ne other _ _).trans stored
  | _ => exact stored

theorem rule_added (tracked : Tracked origin past w) (rule : AccountStep w x event next) {email password uid : String}
    (added : next.store email = some (password,uid)) (new : w.store email ≠ some (password,uid)) :
    ∃ n, OfTap x n w (x,event) ∧ Registers x w (x,event) ∧ email ≠ "" ∧ password ≠ "" ∧
      Runs.Before Accounts.step origin past (Tapped x n email password) (SignInFailed x n) := by
  cases rule with
  | @registered index number n address secret owner pending numbered free fresh =>
      by_cases same : email = address
      · subst same
        have pair : some (secret,owner) = some (password,uid) := (Function.update_self email _ w.store).symm.trans added
        cases pair
        obtain ⟨filled,nonempty,failed⟩ := tracked.requests x n _ ⟨index,numbered,pending⟩
        exact ⟨n,⟨rfl,numbered⟩,⟨index,uid,rfl⟩,filled,nonempty,failed⟩
      · exact absurd ((Function.update_of_ne same _ _).symm.trans added) new
  | _ => exact absurd added new

theorem put_terminal (w : Accounts D) (x : D) (t : Terminal) : (w.put x t).terminal x = t := by
  simp only [Accounts.put,Function.update_self]

theorem put_other {w : Accounts D} {t : Terminal} (other : y ≠ x) : (w.put x t).terminal y = w.terminal y := by
  simp only [Accounts.put,Function.update_of_ne other]

structure Unaffected (x : D) (before after : Accounts D) : Prop where
  store : after.store = before.store
  session : (after.terminal x).app.device.currentUser = (before.terminal x).app.device.currentUser
  newUser : (after.terminal x).app.device.newUser = (before.terminal x).app.device.newUser

theorem rule_untouched {n : Nat} (rule : AccountStep w y event next) (belongs : OfTap x n w (y,event))
    (fails : ¬ event.succeeds) : Unaffected x w next := by
  cases rule with
  | editEmail | editPassword | viewDidAppear | signOut => exact absurd belongs id
  | signedIn | registered => exact absurd trivial fails
  | tapEmpty | tap | signInFailed | registrationFailed =>
      obtain ⟨rfl,_⟩ := belongs
      exact ⟨rfl,by rw [put_terminal]; rfl,by rw [put_terminal]; rfl⟩

theorem appear_newUser (a : App) :
    a.appear.device.newUser = true ↔ a.device.newUser = true ∧ a.device.currentUser = none := by
  cases signed : a.device.currentUser with
  | none => simp [appear_signedOut signed,Device.cleared]
  | some user =>
      cases named : user.displayName with
      | none => simp [appear_unnamed signed named]
      | some name => simp [appear_named signed named]

theorem rule_other (rule : AccountStep w y event next) (other : x ≠ y) : next.terminal x = w.terminal x := by
  cases rule with
  | registered => exact put_other other
  | _ => exact put_other other

theorem rule_newUser (rule : AccountStep w y event next) (x : D) :
    (next.terminal x).app.device.newUser = true ↔ Registers x w (y,event) ∨
      ((w.terminal x).app.device.newUser = true ∧ ¬ AppearsSigned x w (y,event)) := by
  by_cases same : x = y
  · subst same
    cases rule with
    | registered =>
        rw [put_terminal]
        exact iff_of_true rfl (.inl ⟨_,_,rfl⟩)
    | viewDidAppear =>
        rw [put_terminal,appear_newUser]
        simp [Registers,AppearsSigned,Accounts.app]
    | signedIn | registrationFailed | signOut =>
        rw [put_terminal]
        simp only [Registers,AppearsSigned,Prod.mk.injEq,AccountEvent.createUserDone.injEq,reduceCtorEq,and_false,
          exists_false,false_or,false_and,not_false_eq_true,and_true]
        exact Iff.rfl
    | _ =>
        rw [put_terminal]
        simp [Registers,AppearsSigned,Accounts.app]
  · rw [rule_other rule same]
    have registers : ¬ Registers x w (y,event) := fun ⟨_,_,equal⟩ => same (Prod.mk.inj equal).1.symm
    have appears : ¬ AppearsSigned x w (y,event) := fun both => same (Prod.mk.inj both.1).1.symm
    simp [registers,appears]

theorem launch_tracked (store : String → Option (String × String)) (accounts : String → Option (Option String))
    (session : D → Option String) :
    Tracked (Accounts.launch store accounts session) [] (Accounts.launch store accounts session) := by
  refine ⟨fun x => Tickets.Valid.nil,?_⟩
  intro x n request holds
  exact absurd holds.mem List.not_mem_nil

theorem run_tracked {store : String → Option (String × String)} {accounts : String → Option (Option String)}
    {session : D → Option String}
    (reached : Runs.run Accounts.step (.launch store accounts session) past = some w) :
    Tracked (.launch store accounts session) past w :=
  Runs.run_induction (launch_tracked store accounts session)
    (fun _ _ _ _ reached tracked taken => step_tracked reached tracked (step_rule taken)) reached

theorem run_newUser {store : String → Option (String × String)} {accounts : String → Option (Option String)}
    {session : D → Option String} (x : D)
    (reached : Runs.run Accounts.step (.launch store accounts session) past = some w) :
    (w.terminal x).app.device.newUser = true ↔
      Runs.Since Accounts.step (.launch store accounts session) past (Registers x) (AppearsSigned x) := by
  refine Runs.run_induction (I := fun past w => (w.terminal x).app.device.newUser = true ↔
    Runs.Since Accounts.step (.launch store accounts session) past (Registers x) (AppearsSigned x)) ?_ ?_ reached
  · exact iff_of_false Bool.false_ne_true Runs.since_nil
  · intro past w event next reached ih taken
    rw [Runs.since_snoc reached taken,← ih]
    exact rule_newUser (step_rule taken) x

theorem registration_safe (store : String → Option (String × String)) (accounts : String → Option (Option String))
    (session : D → Option String) (events : List (D × AccountEvent)) :
    let origin := Accounts.launch store accounts session
    (Runs.Throughout Accounts.step origin events fun _ w _ next =>
      ∀ email pair, w.store email = some pair → next.store email = some pair) ∧
    (Runs.Throughout Accounts.step origin events fun past w event next =>
      ∀ email password uid, next.store email = some (password,uid) → w.store email ≠ some (password,uid) →
        ∃ x n, OfTap x n w event ∧ Registers x w event ∧ email ≠ "" ∧ password ≠ "" ∧
          Runs.Before Accounts.step origin past (Tapped x n email password) (SignInFailed x n)) ∧
    (∀ x n, ¬ Runs.Occurs Accounts.step origin events (Succeeds x n) →
      Runs.Throughout Accounts.step origin events fun _ w event next => OfTap x n w event → Unaffected x w next) ∧
    ∀ x, Runs.Always Accounts.step origin events fun past w =>
      (w.terminal x).app.device.newUser = true ↔
        Runs.Since Accounts.step origin past (Registers x) (AppearsSigned x) := by
  intro origin
  refine ⟨?_,?_,?_,?_⟩
  · intro past event rest w next split reached taken email pair
    exact rule_store (step_rule taken)
  · intro past event rest w next split reached taken email password uid added new
    exact ⟨event.1,rule_added (run_tracked reached) (step_rule taken) added new⟩
  · intro x n never past event rest w next split reached taken belongs
    refine rule_untouched (step_rule taken) belongs fun succeeded => never ?_
    exact ⟨past,event,rest,w,split,reached,belongs,succeeded⟩
  · intro x past rest w split reached
    exact run_newUser x reached

-- The password is edited while the sign-in is on its way; the one of the tap is
-- registered.
example : (Runs.run Accounts.step (.launch (fun _ => none) (fun _ => none) fun _ : Unit => none)
    [((),.editEmail "u@x"),((),.editPassword "secret"),((),.submitInformations 0),((),.editPassword "other"),
      ((),.signInDone 0 none),((),.createUserDone 0 (some "u"))]).map (fun w => w.store "u@x") =
    some (some ("secret","u")) := by decide

end Journey
