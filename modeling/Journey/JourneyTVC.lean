import Mathlib.Data.List.InsertIdx
import Journey.Device

namespace Journey

inductive Effect where
  | performSegue (identifier : String)
  | presentWelcome
  | commitChanges (uid displayName : String)
  | observe (uid : String)
  deriving DecidableEq, Repr

def emptyLabel : String := "Add a post to see it below!"

def Device.refresh (d : Device) : Device :=
  if d.posts.length > 0 then d.reloadData else {d with postCountLabel := emptyLabel}

def welcome (d : Device) : List Effect := if d.newUser then [.presentWelcome] else []

-- viewDidAppear, without what it does to colours and the profile photo. The
-- bind is the unwrapping of userDisplayName for the header.
def viewDidAppear (d : Device) : Option (Device × List Effect) :=
  match d.currentUser with
  | none =>
    some ({({d with posts := []}).reloadData with displayNameLabel := defaultDisplayName},
      [.performSegue "JourneyToIntroduction"])
  | some user =>
    let greeted := {d with newUser := false}
    if user.displayName = none then
      some (greeted,welcome d ++ [.commitChanges user.uid defaultDisplayName])
    else
      user.displayName.bind fun userDisplayName =>
        some ({greeted.refresh with displayNameLabel := userDisplayName},welcome d ++ [.observe user.uid])

def fetchChild (d : Device) (child : String × Child) : Option Device := do
  let post ← readPost child.2
  let d := ({d with posts := post :: d.posts}).reloadData
  return {d with postCountLabel := toString d.posts.length ++ " Posts"}

def fetchData (d : Device) (snapshot : Snapshot) : Option Device :=
  if snapshot.rows.length > 0 then snapshot.rows.foldlM fetchChild {d with posts := []} else some d

-- deleteRows, remove(at:), reload or placeholder, endUpdates: the table raises
-- when its rows before the update, less one, are not the rows it is now told.
def deleteRow (d : Device) (row : Nat) : Option Device :=
  let rows := d.table.length
  let d := ({d with table := d.table.eraseIdx row,posts := d.posts.eraseIdx row}).refresh
  if rows = d.posts.length + 1 then some d else none

def commitDelete (d : Device) (row : Nat) : Reaction :=
  match d.currentUser,d.posts[row]?.bind Post.id with
  | some user,some id => ⟨some (.removeValue user.uid id),deleteRow d row⟩
  | _,_ => ⟨none,none⟩

def describe (post : Post) (cell : PostCell) : PostCell :=
  {cell with locationLabel := post.location,timeLabel := post.date,postText := post.text}

-- The photo of a cell: the post's own image at once, or the request for a
-- download URL under the account that is signed in now.
def showPhoto (d : Device) (item cell : Nat) (post : Post) : Option Device :=
  match post.image with
  | some image => some (d.setCell cell fun c => {c with postPhoto := some (.image image)})
  | none => do
    let user ← d.currentUser
    let id ← post.id
    return {d with urls := d.urls ++ [⟨cell,item,post,[user.uid,"posts",id]⟩]}

def cellForRowAt (d : Device) (item cell : Nat) : Option Device :=
  if d.posts.length > 0 then do
    let post ← d.posts[item]?
    let d ← showPhoto d item cell post
    return d.setCell cell (describe post)
  else some d

-- The closure of downloadURL in cellForRowAt; remove(at:) traps past the end.
def urlClosure (d : Device) (request : UrlRequest) (found : Bool) : Option Device :=
  if found then
    let d := d.setCell request.cell fun c => {c with postPhoto := some (.stored request.path)}
    if request.item < d.posts.length then
      some {d with posts := (d.posts.eraseIdx request.item).insertIdx request.item request.post}
    else none
  else some d

def Device.shown (d : Device) (posts : List Post) : Device :=
  {d with posts := posts,table := posts,postCountLabel := toString posts.length ++ " Posts"}

theorem fetchChild_shown (d : Device) (child : String × Child) :
    fetchChild d child = (readPost child.2).map fun post => d.shown (post :: d.posts) := by
  unfold fetchChild
  cases readPost child.2 <;> rfl

theorem foldlM_fetchChild (d : Device) (child : String × Child) (rest : List (String × Child)) :
    (child :: rest).foldlM fetchChild d =
      ((child :: rest).mapM fun row => readPost row.2).map fun posts => d.shown (posts.reverse ++ d.posts) := by
  induction rest generalizing d child with
  | nil =>
      rw [List.foldlM_cons,fetchChild_shown]
      cases first : readPost child.2 <;> simp [first]
  | cons next rest ih =>
      rw [List.foldlM_cons,fetchChild_shown,List.mapM_cons]
      cases first : readPost child.2 with
      | none => rfl
      | some post =>
          have others := ih (d.shown (post :: d.posts)) next
          simp only [Option.map_some,Option.bind_eq_bind,Option.bind_some,Option.pure_def] at others ⊢
          rw [others]
          cases (next :: rest).mapM fun row => readPost row.2 with
          | none => rfl
          | some posts =>
              have same : posts.reverse ++ post :: d.posts = (post :: posts).reverse ++ d.posts := by simp
              simp only [Option.map_some,Option.bind_some,Device.shown,same]

theorem fetchData_exact (d : Device) (snapshot : Snapshot) (nonempty : snapshot.rows ≠ []) :
    fetchData d snapshot =
      (snapshot.rows.mapM fun row => readPost row.2).map fun posts => d.shown posts.reverse := by
  unfold fetchData
  rw [if_pos (List.length_pos_iff.mpr nonempty)]
  obtain ⟨child,rest,rows⟩ := List.exists_cons_of_ne_nil nonempty
  rw [rows,foldlM_fetchChild]
  cases (child :: rest).mapM fun row => readPost row.2 <;> simp [Device.shown]

theorem fetchData_shown (d : Device) (snapshot : Snapshot) (posts : List Post) (nonempty : snapshot.rows ≠ [])
    (reads : snapshot.rows.mapM (fun row => readPost row.2) = some posts) :
    fetchData d snapshot = some (d.shown posts.reverse) := by
  rw [fetchData_exact d snapshot nonempty,reads]
  rfl

theorem fetchData_empty (d : Device) (snapshot : Snapshot) (empty : snapshot.rows = []) :
    fetchData d snapshot = some d := by simp [fetchData,empty]

@[simp] theorem refresh_posts (d : Device) : d.refresh.posts = d.posts := by unfold Device.refresh; split <;> rfl
@[simp] theorem refresh_running (d : Device) : d.refresh.running = d.running := by unfold Device.refresh; split <;> rfl
@[simp] theorem refresh_newUser (d : Device) : d.refresh.newUser = d.newUser := by unfold Device.refresh; split <;> rfl
@[simp] theorem refresh_currentUser (d : Device) : d.refresh.currentUser = d.currentUser := by
  unfold Device.refresh; split <;> rfl
@[simp] theorem refresh_observers (d : Device) : d.refresh.observers = d.observers := by
  unfold Device.refresh; split <;> rfl
@[simp] theorem refresh_uploads (d : Device) : d.refresh.uploads = d.uploads := by unfold Device.refresh; split <;> rfl
@[simp] theorem refresh_urls (d : Device) : d.refresh.urls = d.urls := by unfold Device.refresh; split <;> rfl

theorem refresh_table (d : Device) : d.refresh.table = if d.posts = [] then d.table else d.posts := by
  cases posts : d.posts <;> simp [Device.refresh,Device.reloadData,posts]

def Device.cleared (d : Device) : Device := {d with posts := [],table := [],displayNameLabel := defaultDisplayName}

-- The three ways of an appearance. The header is only updated past the test for
-- a missing name, so no way of appearing traps.
theorem viewDidAppear_signedOut {d : Device} (nobody : d.currentUser = none) :
    viewDidAppear d = some (d.cleared,[.performSegue "JourneyToIntroduction"]) := by
  simp [viewDidAppear,nobody,Device.cleared,Device.reloadData]

theorem viewDidAppear_unnamed {d : Device} {user : User} (signed : d.currentUser = some user)
    (unnamed : user.displayName = none) : viewDidAppear d =
      some ({d with newUser := false},welcome d ++ [.commitChanges user.uid defaultDisplayName]) := by
  simp [viewDidAppear,signed,unnamed]

theorem viewDidAppear_named {d : Device} {user : User} {name : String} (signed : d.currentUser = some user)
    (named : user.displayName = some name) : viewDidAppear d =
      some ({({d with newUser := false} : Device).refresh with displayNameLabel := name},
        welcome d ++ [.observe user.uid]) := by
  simp [viewDidAppear,signed,named]

def Device.without (d : Device) (row : Nat) : Device :=
  ({d with table := d.table.eraseIdx row,posts := d.posts.eraseIdx row}).refresh

@[simp] theorem without_posts (d : Device) (row : Nat) : (d.without row).posts = d.posts.eraseIdx row :=
  refresh_posts _
@[simp] theorem without_running (d : Device) (row : Nat) : (d.without row).running = d.running := refresh_running _
@[simp] theorem without_currentUser (d : Device) (row : Nat) : (d.without row).currentUser = d.currentUser :=
  refresh_currentUser _
@[simp] theorem without_observers (d : Device) (row : Nat) : (d.without row).observers = d.observers :=
  refresh_observers _
@[simp] theorem without_uploads (d : Device) (row : Nat) : (d.without row).uploads = d.uploads := refresh_uploads _
@[simp] theorem without_urls (d : Device) (row : Nat) : (d.without row).urls = d.urls := refresh_urls _

theorem deleteRow_exact {d : Device} {row : Nat} (inside : row < d.posts.length) :
    deleteRow d row = if d.table.length = d.posts.length then some (d.without row) else none := by
  have counts : d.table.length = (d.posts.eraseIdx row).length + 1 ↔ d.table.length = d.posts.length := by
    rw [List.length_eraseIdx_of_lt inside]
    omega
  simp only [deleteRow,refresh_posts,counts]
  rfl

theorem commitDelete_found {d : Device} {row : Nat} {user : User} {post : Post} {key : String}
    (signed : d.currentUser = some user) (found : d.posts[row]? = some post) (named : post.id = some key) :
    commitDelete d row = ⟨some (.removeValue user.uid key),
      if d.table.length = d.posts.length then some (d.without row) else none⟩ := by
  rw [← deleteRow_exact (List.getElem?_eq_some_iff.mp found).1]
  simp [commitDelete,signed,found,named]

theorem commitDelete_lost {d : Device} {row : Nat}
    (missing : d.currentUser = none ∨ d.posts[row]?.bind Post.id = none) :
    commitDelete d row = ⟨none,none⟩ := by
  rcases missing with nobody | lost
  · simp [commitDelete,nobody]
  · simp [commitDelete,lost]

theorem cellForRowAt_image {d : Device} {row cell : Nat} {post : Post} {image : UIImage}
    (found : d.posts[row]? = some post) (photo : post.image = some image) : cellForRowAt d row cell =
      some ((d.setCell cell fun c => {c with postPhoto := some (.image image)}).setCell cell (describe post)) := by
  have nonempty := List.length_pos_of_mem (List.mem_of_getElem? found)
  simp [cellForRowAt,nonempty,found,showPhoto,photo]

theorem cellForRowAt_request {d : Device} {row cell : Nat} {post : Post} {user : User} {id : String}
    (found : d.posts[row]? = some post) (photo : post.image = none) (signed : d.currentUser = some user)
    (named : post.id = some id) : cellForRowAt d row cell =
      some (({d with urls := d.urls ++ [⟨cell,row,post,[user.uid,"posts",id]⟩]} : Device).setCell cell
        (describe post)) := by
  have nonempty := List.length_pos_of_mem (List.mem_of_getElem? found)
  simp [cellForRowAt,nonempty,found,showPhoto,photo,signed,named]

theorem cellForRowAt_lost {d : Device} {row cell : Nat} (nonempty : d.posts ≠ [])
    (lost : ∀ post, d.posts[row]? = some post → post.image = none ∧ (d.currentUser = none ∨ post.id = none)) :
    cellForRowAt d row cell = none := by
  rw [cellForRowAt,if_pos (List.length_pos_iff.mpr nonempty)]
  cases found : d.posts[row]? with
  | none => rfl
  | some post =>
      obtain ⟨photo,missing⟩ := lost post found
      rcases missing with nobody | unnamed
      · simp [showPhoto,photo,nobody]
      · cases signed : d.currentUser <;> simp [showPhoto,photo,unnamed,signed]

theorem map_set_same (f : Post → α) {posts : List Post} {item : Nat} (post : Post) (inside : item < posts.length) :
    (posts.set item post).map f = posts.map f ↔ ∃ old, posts[item]? = some old ∧ f old = f post := by
  have here : posts[item]? = some posts[item] := List.getElem?_eq_getElem inside
  constructor
  · intro same
    have read := congrArg (·[item]?) same
    simp only [List.getElem?_map,List.getElem?_set_self inside,here,Option.map_some,Option.some.injEq] at read
    exact ⟨posts[item],here,read.symm⟩
  · intro both
    obtain ⟨old,found,same⟩ := both
    obtain rfl : posts[item] = old := Option.some.inj (here.symm.trans found)
    rw [List.map_set,← same,← List.map_set,List.set_getElem_self]

theorem urlClosure_found {d : Device} {request : UrlRequest} (inside : request.item < d.posts.length) :
    urlClosure d request true = some (({d with posts := d.posts.set request.item request.post} : Device).setCell
      request.cell fun c => {c with postPhoto := some (.stored request.path)}) := by
  simp [urlClosure,Device.setCell,inside,List.insertIdx_eraseIdx_self (Nat.ne_of_lt inside)]

theorem urlClosure_past {d : Device} {request : UrlRequest} (past : d.posts.length ≤ request.item) :
    urlClosure d request true = none := by
  simp [urlClosure,Device.setCell,Nat.not_lt.mpr past]

theorem urlClosure_error (d : Device) (request : UrlRequest) : urlClosure d request false = some d := rfl

end Journey
