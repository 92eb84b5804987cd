import Journey.World
import Journey.Tickets

namespace Journey

inductive CellEvent where
  | cellForRowAt (row cell : Nat)
  | didEndDisplaying (cell : Nat)
  | urlDone (index : Nat) (found : Bool)
  deriving DecidableEq, Repr

-- What a cell on the screen was bound to: a post, the photo of that post, the
-- number of the request made for it and whether that request has succeeded.
structure Binding where
  post : Post
  photo : Photo
  ticket : Option Nat
  obtained : Bool
  deriving DecidableEq, Repr

-- The cells of the table: those with a binding are visible, every other one can
-- be dequeued with its old content. `tickets` numbers the requests of the device.
structure Pool where
  device : Device
  shown : Nat → Option Binding
  tickets : List Nat
  drawn : Nat

def Pool.start (d : Device) : Pool := ⟨d,fun _ => none,[],0⟩

def Device.photoOf (d : Device) (post : Post) : Option Photo :=
  match post.image with
  | some image => some (.image image)
  | none => do
    let user ← d.currentUser
    let id ← post.id
    return .stored [user.uid,"posts",id]

def Device.binding (d : Device) (row ticket : Nat) : Option Binding := do
  let post ← d.posts[row]?
  let photo ← d.photoOf post
  return ⟨post,photo,if post.image.isSome then none else some ticket,false⟩

def Pool.bound (p : Pool) (row cell : Nat) : Pool :=
  let binding := p.device.binding row p.drawn
  {device := p.device.after (cellForRowAt p.device row cell)
   shown := Function.update p.shown cell binding
   tickets := (binding.bind Binding.ticket).elim p.tickets fun t => p.tickets ++ [t]
   drawn := p.drawn + 1}

def Binding.answered (b : Binding) (ticket : Option Nat) (found : Bool) : Binding :=
  if found ∧ b.ticket = ticket then {b with obtained := true} else b

def Pool.answered (p : Pool) (index : Nat) (request : UrlRequest) (found : Bool) : Pool :=
  {device := p.device.after (urlClosure {p.device with urls := p.device.urls.eraseIdx index} request found)
   shown := fun cell => (p.shown cell).map (Binding.answered · p.tickets[index]? found)
   tickets := p.tickets.eraseIdx index
   drawn := p.drawn}

def Pool.step (p : Pool) (event : CellEvent) : Option Pool :=
  if p.device.running then
    match event with
    | .cellForRowAt row cell =>
      if row < p.device.table.length ∧ p.shown cell = none then some (p.bound row cell) else none
    | .didEndDisplaying cell =>
      if p.shown cell = none then none else some {p with shown := Function.update p.shown cell none}
    | .urlDone index found => p.device.urls[index]?.map (p.answered index · found)
  else none

def Binding.Waits (b : Binding) (tickets : List Nat) : Prop := ∃ t ∈ tickets, b.ticket = some t

def Binding.Right (b : Binding) (photo : Option Photo) : Prop :=
  (b.post.image.isSome = true ∨ b.obtained = true → photo = some b.photo) ∧ ∀ other ∈ photo, other = b.photo

def Pool.Faithful (p : Pool) : Prop :=
  ∀ cell b, p.shown cell = some b →
    describe b.post (p.device.cells cell) = p.device.cells cell ∧ b.Right (p.device.cells cell).postPhoto

def Pool.Settled (p : Pool) : Prop :=
  ∀ cell b, p.shown cell = some b → ¬ b.Waits p.tickets → b.Right (p.device.cells cell).postPhoto

-- A completion finds the cell in a state in which it does no harm: a photo that
-- arrives is that of the post bound now or is still to be replaced, and a
-- request that fails leaves no photo of another post behind.
def Pool.Harmless (p : Pool) : CellEvent → Prop
  | .urlDone index found => ∀ request ∈ p.device.urls[index]?, ∀ b ∈ p.shown request.cell,
    if found then b.Waits p.tickets ∨ b.photo = .stored request.path
    else b.ticket = p.tickets[index]? → ∀ other ∈ (p.device.cells request.cell).postPhoto, other = b.photo
  | _ => True

instance (b : Binding) (tickets : List Nat) : Decidable (b.Waits tickets) :=
  inferInstanceAs (Decidable (∃ t ∈ tickets, b.ticket = some t))

instance (p : Pool) : (event : CellEvent) → Decidable (p.Harmless event)
  | .urlDone index found => inferInstanceAs (Decidable (∀ request ∈ p.device.urls[index]?, ∀ b ∈ p.shown request.cell,
      if found then b.Waits p.tickets ∨ b.photo = .stored request.path
      else b.ticket = p.tickets[index]? → ∀ other ∈ (p.device.cells request.cell).postPhoto, other = b.photo))
  | .cellForRowAt _ _ | .didEndDisplaying _ => .isTrue trivial

structure Fits (p : Pool) (cell : Nat) (b : Binding) : Prop where
  described : describe b.post (p.device.cells cell) = p.device.cells cell
  drawn : ∀ t, b.ticket = some t → t < p.drawn ∧ b.post.image = none
  waiting : ∀ t request, b.ticket = some t → Tickets.Holds p.tickets p.device.urls t request →
    request.cell = cell ∧ b.photo = .stored request.path ∧ b.obtained = false

structure Linked (p : Pool) : Prop where
  tickets : Tickets.Valid p.tickets p.device.urls p.drawn
  listed : ∀ request ∈ p.device.urls, p.device.posts[request.item]? = some request.post
  fits : ∀ cell b, p.shown cell = some b → Fits p cell b

variable {p q : Pool} {d : Device} {row cell : Nat}

theorem faithful_of_settled (linked : Linked p) (settled : p.Settled) (quiet : p.device.urls = []) : p.Faithful := by
  intro cell b shown
  have idle : p.tickets = [] := List.length_eq_zero_iff.mp (by rw [linked.tickets.length,quiet]; rfl)
  refine ⟨(linked.fits cell b shown).described,settled cell b shown ?_⟩
  intro waits
  obtain ⟨t,member,_⟩ := waits
  rw [idle] at member
  exact absurd member List.not_mem_nil

theorem start_linked (quiet : d.urls = []) : Linked (.start d) := by
  refine ⟨?_,?_,?_⟩
  · simp only [Pool.start,quiet]
    exact .nil
  · simp [Pool.start,quiet]
  · intro cell b shown
    cases shown

-- The three ways of a binding: an image of the post itself, a request, or a cell
-- that comes back as it was, possibly with a trap.
inductive Binds (d : Device) (row cell ticket : Nat) : Option Binding → Device → Prop where
  | image {post : Post} {image : UIImage} (found : d.posts[row]? = some post) (photo : post.image = some image) :
      Binds d row cell ticket (some ⟨post,.image image,none,false⟩)
        ((d.setCell cell fun c => {c with postPhoto := some (.image image)}).setCell cell (describe post))
  | request {post : Post} {user : User} {id : String} (found : d.posts[row]? = some post) (photo : post.image = none) :
      Binds d row cell ticket (some ⟨post,.stored [user.uid,"posts",id],some ticket,false⟩)
        (({d with urls := d.urls ++ [⟨cell,row,post,[user.uid,"posts",id]⟩]} : Device).setCell cell (describe post))
  | nothing {running : Bool} : Binds d row cell ticket none {d with running}

theorem binds (d : Device) (row cell ticket : Nat) :
    Binds d row cell ticket (d.binding row ticket) (d.after (cellForRowAt d row cell)) := by
  by_cases empty : d.posts = []
  · have nothing : d.binding row ticket = none := by simp [Device.binding,empty]
    have same : d.after (cellForRowAt d row cell) = {d with running := d.running} := by
      simp [cellForRowAt,empty,Device.after]
    rw [nothing,same]
    exact .nothing
  · by_cases lost : ∀ post, d.posts[row]? = some post → post.image = none ∧ (d.currentUser = none ∨ post.id = none)
    · have nothing : d.binding row ticket = none := by
        cases found : d.posts[row]? with
        | none => simp [Device.binding,found]
        | some post =>
            obtain ⟨photo,missing⟩ := lost post found
            rcases missing with nobody | unnamed
            · simp [Device.binding,found,Device.photoOf,photo,nobody]
            · simp [Device.binding,found,Device.photoOf,photo,unnamed]
      rw [nothing,cellForRowAt_lost empty lost]
      exact .nothing
    · simp only [not_forall,not_and,not_or] at lost
      obtain ⟨post,found,present⟩ := lost
      cases photo : post.image with
      | some image =>
          have binding : d.binding row ticket = some ⟨post,.image image,none,false⟩ := by
            simp [Device.binding,found,Device.photoOf,photo]
          rw [binding,cellForRowAt_image found photo]
          exact .image found photo
      | none =>
          obtain ⟨signed,named⟩ := present photo
          obtain ⟨user,signed⟩ := Option.ne_none_iff_exists'.mp signed
          obtain ⟨id,named⟩ := Option.ne_none_iff_exists'.mp named
          have binding : d.binding row ticket =
              some ⟨post,.stored [user.uid,"posts",id],some ticket,false⟩ := by
            simp [Device.binding,found,Device.photoOf,photo,signed,named]
          rw [binding,cellForRowAt_request found photo signed named]
          exact .request found photo

theorem update_shown {shown : Nat → Option Binding} {new : Option Binding} {c : Nat} {b : Binding}
    (found : Function.update shown cell new c = some b) :
    (c = cell ∧ new = some b) ∨ (c ≠ cell ∧ shown c = some b) := by
  by_cases same : c = cell
  · subst same
    exact .inl ⟨rfl,by simpa using found⟩
  · exact .inr ⟨same,by simpa [Function.update_of_ne same] using found⟩

theorem update_hidden {shown : Nat → Option Binding} {c : Nat} {b : Binding}
    (found : Function.update shown cell none c = some b) : shown c = some b := by
  rcases update_shown found with ⟨_,hidden⟩ | ⟨_,old⟩
  · cases hidden
  · exact old

theorem Fits.frame {b : Binding} (fits : Fits p cell b)
    (described : describe b.post (q.device.cells cell) = q.device.cells cell) (more : p.drawn ≤ q.drawn)
    (holds : ∀ t request, t < p.drawn → Tickets.Holds q.tickets q.device.urls t request →
      Tickets.Holds p.tickets p.device.urls t request) : Fits q cell b where
  described := described
  drawn t ticket := ⟨Nat.lt_of_lt_of_le (fits.drawn t ticket).1 more,(fits.drawn t ticket).2⟩
  waiting t request ticket held := fits.waiting t request ticket (holds t request (fits.drawn t ticket).1 held)

theorem setCell_other {c : Nat} (change : PostCell → PostCell) (other : c ≠ cell) :
    (d.setCell cell change).cells c = d.cells c := if_neg other

theorem setCell_same (change : PostCell → PostCell) : (d.setCell cell change).cells cell = change (d.cells cell) :=
  if_pos rfl

theorem describe_again (post : Post) (c : PostCell) : describe post (describe post c) = describe post c := rfl

theorem linked_bound (linked : Linked p) : Linked (p.bound row cell) := by
  obtain ⟨tickets,listed,fits⟩ := linked
  have rule := binds p.device row cell p.drawn
  unfold Pool.bound
  generalize p.device.binding row p.drawn = new,p.device.after (cellForRowAt p.device row cell) = e at rule
  have more := tickets.mono (Nat.le_succ _)
  cases rule with
  | nothing =>
      refine ⟨more,listed,?_⟩
      intro c b shown
      have old := update_hidden shown
      exact (fits c b old).frame (fits c b old).described (Nat.le_succ _) fun _ _ _ held => held
  | image found photo =>
      refine ⟨more,listed,?_⟩
      intro c b shown
      rcases update_shown shown with ⟨rfl,new⟩ | ⟨other,old⟩
      · cases new
        refine ⟨?_,?_,?_⟩
        · simp only [setCell_same,describe_again]
        · intro t ticket
          cases ticket
        · intro t request ticket
          cases ticket
      · refine (fits c b old).frame ?_ (Nat.le_succ _) fun _ _ _ held => held
        simpa only [setCell_other _ other] using (fits c b old).described
  | request found photo =>
      have fresh : p.drawn ∉ p.tickets := fun member => Nat.lt_irrefl _ (tickets.below _ member)
      refine ⟨more.issue fresh (Nat.lt_succ_self _),?_,?_⟩
      · intro request member
        rcases List.mem_append.mp member with old | new
        · exact listed request old
        · rw [List.mem_singleton.mp new]
          exact found
      · intro c b shown
        rcases update_shown shown with ⟨rfl,new⟩ | ⟨other,old⟩
        · cases new
          refine ⟨?_,?_,?_⟩
          · simp only [setCell_same,describe_again]
          · intro t ticket
            cases ticket
            exact ⟨Nat.lt_succ_self _,photo⟩
          · intro t request ticket held
            cases ticket
            rcases (Tickets.holds_issue tickets).mp held with old | ⟨_,rfl⟩
            · exact absurd old.mem fresh
            · exact ⟨rfl,rfl,rfl⟩
        · refine (fits c b old).frame ?_ (Nat.le_succ _) ?_
          · simpa only [setCell_other _ other] using (fits c b old).described
          · intro t request drawn held
            rcases (Tickets.holds_issue tickets).mp held with old | ⟨rfl,_⟩
            · exact old
            · exact absurd drawn (Nat.lt_irrefl _)

@[simp] theorem answered_post (b : Binding) (ticket : Option Nat) (found : Bool) :
    (b.answered ticket found).post = b.post := by unfold Binding.answered; split <;> rfl

@[simp] theorem answered_photo (b : Binding) (ticket : Option Nat) (found : Bool) :
    (b.answered ticket found).photo = b.photo := by unfold Binding.answered; split <;> rfl

@[simp] theorem answered_ticket (b : Binding) (ticket : Option Nat) (found : Bool) :
    (b.answered ticket found).ticket = b.ticket := by unfold Binding.answered; split <;> rfl

theorem answered_other {b : Binding} {ticket : Option Nat} {found : Bool} (other : b.ticket ≠ ticket) :
    b.answered ticket found = b := if_neg fun both => other both.2

section

variable {index : Nat} {request : UrlRequest} {found : Bool}

theorem answered_device (linked : Linked p) (pending : p.device.urls[index]? = some request) :
    (p.answered index request found).device = if found then
      ({p.device with urls := p.device.urls.eraseIdx index} : Device).setCell request.cell
        fun c => {c with postPhoto := some (.stored request.path)}
      else {p.device with urls := p.device.urls.eraseIdx index} := by
  have here := linked.listed request (List.mem_of_getElem? pending)
  obtain ⟨inside,same⟩ := List.getElem?_eq_some_iff.mp here
  have kept : p.device.posts.set request.item request.post = p.device.posts := by
    rw [← same,List.set_getElem_self]
  cases found with
  | false => rfl
  | true =>
      have done := urlClosure_found (d := {p.device with urls := p.device.urls.eraseIdx index}) inside
      simp only [Pool.answered,done,Device.after,kept,if_true]

theorem answered_shown {c : Nat} {b : Binding} (shown : (p.answered index request found).shown c = some b) :
    ∃ old, p.shown c = some old ∧ b = old.answered p.tickets[index]? found := by
  obtain ⟨old,before,same⟩ := Option.map_eq_some_iff.mp shown
  exact ⟨old,before,same.symm⟩

theorem answered_described (linked : Linked p) (pending : p.device.urls[index]? = some request) {c : Nat} {post : Post}
    (described : describe post (p.device.cells c) = p.device.cells c) :
    describe post ((p.answered index request found).device.cells c) =
      (p.answered index request found).device.cells c := by
  rw [answered_device linked pending]
  split
  · by_cases same : c = request.cell
    · subst same
      rw [setCell_same]
      exact congrArg (fun c : PostCell => {c with postPhoto := some (.stored request.path)}) described
    · rw [setCell_other _ same]
      exact described
  · exact described

theorem linked_answered (linked : Linked p) (pending : p.device.urls[index]? = some request) :
    Linked (p.answered index request found) := by
  obtain ⟨ticket,here,_⟩ := linked.tickets.at pending
  have urls : (p.answered index request found).device.urls = p.device.urls.eraseIdx index := by
    rw [answered_device linked pending]
    split <;> rfl
  have posts : (p.answered index request found).device.posts = p.device.posts := by
    rw [answered_device linked pending]
    split <;> rfl
  refine ⟨by rw [urls]; exact linked.tickets.call index,?_,?_⟩
  · intro other member
    rw [urls] at member
    rw [posts]
    exact linked.listed other (List.mem_of_mem_eraseIdx member)
  · intro c b shown
    obtain ⟨old,before,rfl⟩ := answered_shown shown
    have fits := linked.fits c old before
    refine ⟨?_,?_,?_⟩
    · rw [answered_post]
      exact answered_described linked pending fits.described
    · rw [answered_ticket,answered_post]
      exact fits.drawn
    · intro t other numbered held
      rw [answered_ticket] at numbered
      rw [urls] at held
      have away : old.ticket ≠ p.tickets[index]? := by
        rw [numbered,here]
        exact fun same => ((linked.tickets.mem_call here).mp held.mem).2 (Option.some.inj same)
      rw [answered_other away]
      exact fits.waiting t other numbered (Tickets.holds_call held)

theorem right_foreign {b : Binding} {photo : Photo} : b.Right (some photo) ↔ b.photo = photo := by
  constructor
  · intro right
    exact (right.2 photo rfl).symm
  · intro same
    subst same
    exact ⟨fun _ => rfl,fun other shown => (Option.some.inj shown).symm⟩

theorem right_failed {b : Binding} {photo : Option Photo} (remote : b.post.image = none)
    (waiting : b.obtained = false) : b.Right photo ↔ ∀ other ∈ photo, other = b.photo := by
  simp [Binding.Right,remote,waiting]

theorem answered_failed (b : Binding) (ticket : Option Nat) : b.answered ticket false = b := if_neg (by simp)

theorem answered_gone {ticket : Nat} {b : Binding} (linked : Linked p) (here : p.tickets[index]? = some ticket)
    (own : b.ticket = some ticket) : ¬ (b.answered p.tickets[index]? found).Waits (p.tickets.eraseIdx index) := by
  intro waits
  obtain ⟨t,member,numbered⟩ := waits
  rw [answered_ticket,own] at numbered
  exact ((linked.tickets.mem_call here).mp member).2 (Option.some.inj numbered).symm

theorem waits_call {ticket : Nat} {b : Binding} (linked : Linked p) (here : p.tickets[index]? = some ticket)
    (other : b.ticket ≠ some ticket) : b.Waits (p.tickets.eraseIdx index) ↔ b.Waits p.tickets := by
  refine exists_congr fun t => and_congr_left fun numbered => ?_
  rw [linked.tickets.mem_call here]
  exact and_iff_left fun same => other (same ▸ numbered)

theorem answered_right {b : Binding} (linked : Linked p) (settled : p.Settled)
    (pending : p.device.urls[index]? = some request) (shown : p.shown request.cell = some b) :
    (¬ (b.answered p.tickets[index]? found).Waits (p.tickets.eraseIdx index) →
      (b.answered p.tickets[index]? found).Right
        ((p.answered index request found).device.cells request.cell).postPhoto) ↔
    if found then b.Waits p.tickets ∨ b.photo = .stored request.path
    else b.ticket = p.tickets[index]? → ∀ other ∈ (p.device.cells request.cell).postPhoto, other = b.photo := by
  obtain ⟨ticket,here,held⟩ := linked.tickets.at pending
  have fits := linked.fits request.cell b shown
  rw [answered_device linked pending]
  by_cases own : b.ticket = some ticket
  · obtain ⟨_,photo,waiting⟩ := fits.waiting ticket request own held
    have gone : ¬ (b.answered p.tickets[index]? found).Waits (p.tickets.eraseIdx index) :=
      answered_gone linked here own
    simp only [gone,not_false_eq_true,forall_const]
    cases found with
    | true =>
        refine iff_of_true ?_ (.inl ⟨ticket,held.mem,own⟩)
        simp only [if_true,setCell_same,right_foreign,answered_photo,photo]
    | false =>
        simp only [Bool.false_eq_true,if_false,answered_failed,own,here,forall_const]
        exact right_failed (fits.drawn ticket own).2 waiting
  · have same : b.answered p.tickets[index]? found = b := answered_other (here ▸ own)
    rw [same,waits_call linked here own]
    cases found with
    | true =>
        simp only [if_true,setCell_same,right_foreign]
        exact or_iff_not_imp_left.symm
    | false =>
        simp only [Bool.false_eq_true,if_false,here,own,false_implies,iff_true]
        exact settled request.cell b shown

theorem answered_settled (linked : Linked p) (settled : p.Settled) (pending : p.device.urls[index]? = some request) :
    (p.answered index request found).Settled ↔ p.Harmless (.urlDone index found) := by
  obtain ⟨ticket,here,held⟩ := linked.tickets.at pending
  constructor
  · intro after other found' b shown
    cases pending.symm.trans found'
    have now : (p.answered index request found).shown request.cell = some (b.answered p.tickets[index]? found) :=
      Option.map_eq_some_iff.mpr ⟨b,shown,rfl⟩
    exact (answered_right linked settled pending shown).mp (after request.cell _ now)
  · intro harmless c b' shown'
    obtain ⟨b,shown,rfl⟩ := answered_shown shown'
    by_cases same : c = request.cell
    · subst same
      exact (answered_right linked settled pending shown).mpr (harmless request pending b shown)
    · -- The number of the request belongs to a binding of its own cell only.
      have other : b.ticket ≠ some ticket := fun own =>
        same ((linked.fits c b shown).waiting ticket request own held).1.symm
      rw [answered_other (here ▸ other)]
      intro idle
      have idle : ¬ b.Waits p.tickets := fun waits => idle ((waits_call linked here other).mpr waits)
      have kept : (p.answered index request found).device.cells c = p.device.cells c := by
        rw [answered_device linked pending]
        split
        · exact setCell_other _ same
        · rfl
      rw [kept]
      exact settled c b shown idle

end

theorem bound_settled (settled : p.Settled) : (p.bound row cell).Settled := by
  have rule := binds p.device row cell p.drawn
  unfold Pool.bound
  generalize p.device.binding row p.drawn = new,p.device.after (cellForRowAt p.device row cell) = e at rule
  cases rule with
  | nothing =>
      intro c b shown idle
      exact settled c b (update_hidden shown) idle
  | image found photo =>
      intro c b shown idle
      rcases update_shown shown with ⟨rfl,new⟩ | ⟨other,old⟩
      · cases new
        simp only [setCell_same]
        exact right_foreign.mpr rfl
      · simp only [setCell_other _ other]
        exact settled c b old idle
  | request found photo =>
      intro c b shown idle
      rcases update_shown shown with ⟨rfl,new⟩ | ⟨other,old⟩
      · cases new
        exact absurd ⟨p.drawn,List.mem_append_right _ (List.mem_singleton_self _),rfl⟩ idle
      · rw [setCell_other _ other]
        refine settled c b old fun waits => idle ?_
        obtain ⟨t,member,numbered⟩ := waits
        exact ⟨t,List.mem_append_left _ member,numbered⟩

theorem step_linked {event : CellEvent} (linked : Linked p) (taken : p.step event = some q) : Linked q := by
  obtain ⟨_,taken⟩ := Option.ite_none_right_eq_some.mp taken
  cases event with
  | cellForRowAt row cell =>
      obtain ⟨_,same⟩ := Option.ite_none_right_eq_some.mp taken
      cases same
      exact linked_bound linked
  | didEndDisplaying cell =>
      obtain ⟨_,same⟩ := Option.ite_none_left_eq_some.mp taken
      cases same
      refine ⟨linked.tickets,linked.listed,fun c b shown => ?_⟩
      have fits := linked.fits c b (update_hidden shown)
      exact fits.frame fits.described (Nat.le_refl _) fun _ _ _ held => held
  | urlDone index found =>
      obtain ⟨request,pending,rfl⟩ := Option.map_eq_some_iff.mp taken
      exact linked_answered linked pending

theorem step_settled {event : CellEvent} (linked : Linked p) (settled : p.Settled) (taken : p.step event = some q) :
    q.Settled ↔ p.Harmless event := by
  obtain ⟨_,taken⟩ := Option.ite_none_right_eq_some.mp taken
  cases event with
  | cellForRowAt row cell =>
      obtain ⟨_,same⟩ := Option.ite_none_right_eq_some.mp taken
      cases same
      exact iff_of_true (bound_settled settled) trivial
  | didEndDisplaying cell =>
      obtain ⟨_,same⟩ := Option.ite_none_left_eq_some.mp taken
      cases same
      refine iff_of_true (fun c b shown idle => ?_) trivial
      exact settled c b (update_hidden shown) idle
  | urlDone index found =>
      obtain ⟨request,pending,rfl⟩ := Option.map_eq_some_iff.mp taken
      exact answered_settled linked settled pending

theorem run_linked {events : List CellEvent} (quiet : d.urls = [])
    (ran : Runs.run Pool.step (.start d) events = some p) : Linked p :=
  Runs.run_invariant (start_linked quiet) (fun _ _ _ linked taken => step_linked linked taken) ran

theorem cells_exact {events : List CellEvent} (quiet : d.urls = [])
    (ran : Runs.run Pool.step (.start d) events = some p) :
    (Runs.Guarded Pool.step (.start d) events (fun _ p event => p.Harmless event) →
      Runs.Always Pool.step (.start d) events fun _ p => p.device.urls = [] → p.Faithful) ∧
    (Runs.Always Pool.step (.start d) events (fun _ p => p.Settled) ↔
      Runs.Guarded Pool.step (.start d) events fun _ p event => p.Harmless event) := by
  have start : (Pool.start d).Settled := by
    intro cell b shown
    cases shown
  have exact : Runs.Always Pool.step (.start d) events (fun _ p => p.Settled) ↔
      Runs.Guarded Pool.step (.start d) events fun _ p event => p.Harmless event :=
    Runs.always_iff_guarded start (fun _ _ _ _ reached settled taken =>
      step_settled (run_linked quiet reached) settled taken) ran
  refine ⟨fun harmless => ?_,exact⟩
  intro past rest q split reached quietNow
  exact faithful_of_settled (run_linked quiet reached) (exact.mpr harmless past rest q split reached) quietNow

def Device.scrolled : Device :=
  {Device.launched with
    currentUser := some ⟨"u",some "U"⟩
    posts := [⟨some "b","second","Montréal","May 2",none⟩,⟨some "a","first","Québec","May 1",none⟩]
    table := [⟨some "b","second","Montréal","May 2",none⟩,⟨some "a","first","Québec","May 1",none⟩]}

theorem cells_twoRows :
    let events : List CellEvent := [.cellForRowAt 0 0,.cellForRowAt 1 1,.urlDone 1 true,.didEndDisplaying 0,
      .urlDone 0 false,.cellForRowAt 0 0,.urlDone 0 true]
    Runs.Always Pool.step (.start .scrolled) events (fun _ p => p.device.urls = [] → p.Faithful) ∧
      Runs.Always Pool.step (.start .scrolled) events fun _ p => p.Settled := by
  intro events
  obtain ⟨p,ran⟩ := Option.isSome_iff_exists.mp
    (show (Runs.run Pool.step (.start .scrolled) events).isSome = true by decide)
  have harmless : Runs.Guarded Pool.step (.start .scrolled) events fun _ p event => p.Harmless event :=
    Runs.guarded_of_checks (by decide)
  exact ⟨(cells_exact rfl ran).1 harmless,(cells_exact rfl ran).2.mpr harmless⟩

-- A cell leaves the screen with its request pending and comes back for another
-- row; the photo of the row that it left arrives last.
theorem cells_late_wrong : ¬ Runs.Always Pool.step (.start .scrolled) [.cellForRowAt 0 0,.didEndDisplaying 0,
    .cellForRowAt 1 0,.urlDone 1 true,.urlDone 0 true] fun _ p => p.device.urls = [] → p.Faithful := by
  intro always
  obtain ⟨p,ran,quiet,bound,shows⟩ : ∃ p, Runs.run Pool.step (.start .scrolled) [.cellForRowAt 0 0,
      .didEndDisplaying 0,.cellForRowAt 1 0,.urlDone 1 true,.urlDone 0 true] = some p ∧ p.device.urls = [] ∧
      (p.shown 0).map Binding.photo = some (.stored ["u","posts","a"]) ∧
      (p.device.cells 0).postPhoto = some (.stored ["u","posts","b"]) := Runs.run_reaches (by decide)
  obtain ⟨b,shown,photo⟩ := Option.map_eq_some_iff.mp bound
  have right := (always _ [] p (by simp) ran quiet 0 b shown).2.2 _ shows
  exact absurd (right.trans photo) (by decide)

end Journey
