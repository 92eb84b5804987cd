import Journey.JourneyTVC
import Journey.NewPostVC
import Journey.SettingsVC
import Journey.Backend

namespace Journey

-- Everything that can happen on a device: a change of the session, what the
-- user does, and one of its pending closures being called. The arguments are
-- what the user or the network decides.
inductive Action where
  | signIn (user : User)
  | register (uid : String)
  | signOut
  | profileChanged (displayName : String)
  | viewDidAppear
  | saveNewPost (form : Form)
  | uploadDone (index : Nat) (ok : Bool)
  | deliver (index : Nat)
  | delete (row : Nat)
  | cellForRowAt (row cell : Nat)
  | urlDone (index : Nat) (found : Bool)
  | uploadProfilePhoto (image : UIImage)
  deriving DecidableEq, Repr

def Action.KeepsSession : Action → Prop
  | .signIn _ | .register _ | .signOut => False
  | _ => True

-- Of what an appearance starts, only fetchData reaches the backend here; its
-- other effects belong to the screens.
def Effect.request : Effect → Option Request
  | .observe uid => some (.observe uid)
  | _ => none

def appearance (d : Device) : Reaction :=
  match viewDidAppear d with
  | none => ⟨none,none⟩
  | some (next,effects) => ⟨effects.findSome? Effect.request,some next⟩

-- `none`: the action is not possible now. Rows are those that the table shows.
def react (auto : AutoId) (server : Server) (d : Device) : Action → Option Reaction
  | .signIn user => some ⟨none,some {d with currentUser := some user}⟩
  | .register uid => some ⟨none,some {d with currentUser := some ⟨uid,none⟩,newUser := true}⟩
  | .signOut => some ⟨none,some {d with currentUser := none}⟩
  | .profileChanged name => d.currentUser.map fun user =>
      ⟨none,some {d with currentUser := some {user with displayName := some name}}⟩
  | .viewDidAppear => some (appearance d)
  | .saveNewPost form => some (saveNewPost (auto.key server.drawn) d form)
  | .uploadDone index ok => d.uploads[index]?.map fun upload =>
      uploadClosure {d with uploads := d.uploads.eraseIdx index} upload ok
  | .deliver index => match d.observers[index]? with
      | some ⟨uid,snapshot :: rest⟩ =>
        some ⟨none,fetchData {d with observers := d.observers.set index ⟨uid,rest⟩} snapshot⟩
      | _ => none
  | .delete row => if row < d.table.length then some (commitDelete d row) else none
  | .cellForRowAt row cell => if row < d.table.length then some ⟨none,cellForRowAt d row cell⟩ else none
  | .urlDone index found => d.urls[index]?.map fun request =>
      ⟨none,urlClosure {d with urls := d.urls.eraseIdx index} request found⟩
  | .uploadProfilePhoto image => some ⟨none,uploadProfilePhoto d image⟩

-- The same behaviour as rules, one for each way an action can go.
inductive Reacts (auto : AutoId) (server : Server) (d : Device) : Action → Reaction → Prop where
  | signIn {user : User} : Reacts auto server d (.signIn user) ⟨none,some {d with currentUser := some user}⟩
  | register {uid : String} : Reacts auto server d (.register uid)
      ⟨none,some {d with currentUser := some ⟨uid,none⟩,newUser := true}⟩
  | signOut : Reacts auto server d .signOut ⟨none,some {d with currentUser := none}⟩
  | profileChanged {user : User} {name : String} (signed : d.currentUser = some user) :
      Reacts auto server d (.profileChanged name)
        ⟨none,some {d with currentUser := some {user with displayName := some name}}⟩
  | appearOut (nobody : d.currentUser = none) : Reacts auto server d .viewDidAppear ⟨none,some d.cleared⟩
  | appearUnnamed {user : User} (signed : d.currentUser = some user) (unnamed : user.displayName = none) :
      Reacts auto server d .viewDidAppear ⟨none,some {d with newUser := false}⟩
  | appearNamed {user : User} {name : String} (signed : d.currentUser = some user)
      (named : user.displayName = some name) :
      Reacts auto server d .viewDidAppear ⟨some (.observe user.uid),
        some {({d with newUser := false} : Device).refresh with displayNameLabel := name}⟩
  | refused {form : Form} (incomplete : form.text = "" ∨ form.image = none) :
      Reacts auto server d (.saveNewPost form) ⟨none,some d⟩
  | saveTrap {form : Form} (text : form.text ≠ "") (photo : form.image ≠ none)
      (nobody : d.currentUser = none) : Reacts auto server d (.saveNewPost form) ⟨none,none⟩
  | save {form : Form} {user : User} {image : UIImage} {data : List UInt8} (text : form.text ≠ "")
      (photo : form.image = some image) (signed : d.currentUser = some user) (encoded : image.jpeg = some data) :
      Reacts auto server d (.saveNewPost form)
        ⟨some (.setValue user.uid (auto.key server.drawn) (form.post (auto.key server.drawn))),some {d with
          uploads := d.uploads ++ [.ofPost user.uid (auto.key server.drawn) data (form.post (auto.key server.drawn))]}⟩
  | saveUnencoded {form : Form} {user : User} {image : UIImage} (text : form.text ≠ "")
      (photo : form.image = some image) (signed : d.currentUser = some user) (unencoded : image.jpeg = none) :
      Reacts auto server d (.saveNewPost form)
        ⟨some (.setValue user.uid (auto.key server.drawn) (form.post (auto.key server.drawn))),none⟩
  | uploaded {index : Nat} {path : List String} {data : List UInt8} {post : Post}
      (pending : d.uploads[index]? = some ⟨path,data,.post post⟩) : Reacts auto server d (.uploadDone index true)
        ⟨some (.putObject path data),some {d with uploads := d.uploads.eraseIdx index,posts := d.posts ++ [post]}⟩
  | profileUploaded {index : Nat} {path : List String} {data : List UInt8}
      (pending : d.uploads[index]? = some ⟨path,data,.profilePhoto⟩) : Reacts auto server d (.uploadDone index true)
        ⟨some (.putObject path data),some {d with uploads := d.uploads.eraseIdx index}⟩
  | uploadFailed {index : Nat} {upload : Upload} (pending : d.uploads[index]? = some upload) :
      Reacts auto server d (.uploadDone index false) ⟨none,some {d with uploads := d.uploads.eraseIdx index}⟩
  | deliverEmpty {index : Nat} {uid : String} {snapshot : Snapshot} {rest : List Snapshot}
      (waiting : d.observers[index]? = some ⟨uid,snapshot :: rest⟩) (empty : snapshot.rows = []) :
      Reacts auto server d (.deliver index) ⟨none,some {d with observers := d.observers.set index ⟨uid,rest⟩}⟩
  | deliver {index : Nat} {uid : String} {snapshot : Snapshot} {rest : List Snapshot} {posts : List Post}
      (waiting : d.observers[index]? = some ⟨uid,snapshot :: rest⟩) (nonempty : snapshot.rows ≠ [])
      (reads : snapshot.rows.mapM (fun row => readPost row.2) = some posts) : Reacts auto server d (.deliver index)
        ⟨none,some (({d with observers := d.observers.set index ⟨uid,rest⟩} : Device).shown posts.reverse)⟩
  | deliverTrap {index : Nat} {uid : String} {snapshot : Snapshot} {rest : List Snapshot}
      (waiting : d.observers[index]? = some ⟨uid,snapshot :: rest⟩)
      (mistyped : snapshot.rows.mapM (fun row => readPost row.2) = none) :
      Reacts auto server d (.deliver index) ⟨none,none⟩
  | delete {row : Nat} {user : User} {post : Post} {key : String} (inside : row < d.table.length)
      (signed : d.currentUser = some user) (found : d.posts[row]? = some post) (named : post.id = some key)
      (rows : d.table.length = d.posts.length) :
      Reacts auto server d (.delete row) ⟨some (.removeValue user.uid key),some (d.without row)⟩
  | deleteRaise {row : Nat} {user : User} {post : Post} {key : String} (inside : row < d.table.length)
      (signed : d.currentUser = some user) (found : d.posts[row]? = some post) (named : post.id = some key)
      (rows : d.table.length ≠ d.posts.length) :
      Reacts auto server d (.delete row) ⟨some (.removeValue user.uid key),none⟩
  | deleteTrap {row : Nat} (inside : row < d.table.length)
      (missing : d.currentUser = none ∨ d.posts[row]?.bind Post.id = none) :
      Reacts auto server d (.delete row) ⟨none,none⟩
  | cellEmpty {row cell : Nat} (inside : row < d.table.length) (empty : d.posts = []) :
      Reacts auto server d (.cellForRowAt row cell) ⟨none,some d⟩
  | cellImage {row cell : Nat} {post : Post} {image : UIImage} (inside : row < d.table.length)
      (found : d.posts[row]? = some post) (photo : post.image = some image) :
      Reacts auto server d (.cellForRowAt row cell)
        ⟨none,some ((d.setCell cell fun c => {c with postPhoto := some (.image image)}).setCell cell (describe post))⟩
  | cellRequest {row cell : Nat} {post : Post} {user : User} {id : String} (inside : row < d.table.length)
      (found : d.posts[row]? = some post) (photo : post.image = none) (signed : d.currentUser = some user)
      (named : post.id = some id) : Reacts auto server d (.cellForRowAt row cell)
        ⟨none,some (({d with urls := d.urls ++ [⟨cell,row,post,[user.uid,"posts",id]⟩]} : Device).setCell cell
          (describe post))⟩
  | cellTrap {row cell : Nat} (inside : row < d.table.length) (nonempty : d.posts ≠ [])
      (lost : ∀ post, d.posts[row]? = some post → post.image = none ∧ (d.currentUser = none ∨ post.id = none)) :
      Reacts auto server d (.cellForRowAt row cell) ⟨none,none⟩
  | urlFailed {index : Nat} {request : UrlRequest} (pending : d.urls[index]? = some request) :
      Reacts auto server d (.urlDone index false) ⟨none,some {d with urls := d.urls.eraseIdx index}⟩
  | urlFound {index : Nat} {request : UrlRequest} (pending : d.urls[index]? = some request)
      (inside : request.item < d.posts.length) : Reacts auto server d (.urlDone index true)
        ⟨none,some (({d with urls := d.urls.eraseIdx index,posts := d.posts.set request.item request.post} :
          Device).setCell request.cell fun c => {c with postPhoto := some (.stored request.path)})⟩
  | urlTrap {index : Nat} {request : UrlRequest} (pending : d.urls[index]? = some request)
      (past : d.posts.length ≤ request.item) : Reacts auto server d (.urlDone index true) ⟨none,none⟩
  | profilePhoto {image : UIImage} {user : User} {data : List UInt8} (encoded : image.jpeg = some data)
      (signed : d.currentUser = some user) : Reacts auto server d (.uploadProfilePhoto image)
        ⟨none,some {d with uploads := d.uploads ++ [⟨[user.uid,"profilePhoto.jpg"],data,.profilePhoto⟩]}⟩
  | profilePhotoTrap {image : UIImage} (lost : image.jpeg = none ∨ d.currentUser = none) :
      Reacts auto server d (.uploadProfilePhoto image) ⟨none,none⟩

theorem Reacts.node {auto : AutoId} {server : Server} {d : Device} {action : Action} {reaction : Reaction}
    (rule : Reacts auto server d action reaction) {request : Request} {uid : String}
    (issued : reaction.request = some request) (node : request.node = some uid) : d.uid = some uid := by
  cases rule with
  | appearNamed signed | save _ _ signed | saveUnencoded _ _ signed | delete _ signed | deleteRaise _ signed =>
      cases issued
      rw [Device.uid,signed]
      exact node
  | uploaded | profileUploaded => cases issued; cases node
  | _ => cases issued

theorem welcome_request (d : Device) (effect : Effect) :
    (welcome d ++ [effect]).findSome? Effect.request = effect.request := by
  unfold welcome
  split <;> cases effect <;> rfl

theorem appearance_signedOut {d : Device} (nobody : d.currentUser = none) : appearance d = ⟨none,some d.cleared⟩ := by
  simp [appearance,viewDidAppear_signedOut nobody,Effect.request]

theorem appearance_unnamed {d : Device} (signed : d.currentUser = some user) (unnamed : user.displayName = none) :
    appearance d = ⟨none,some {d with newUser := false}⟩ := by
  simp only [appearance,viewDidAppear_unnamed signed unnamed,welcome_request,Effect.request]

theorem appearance_named {d : Device} (signed : d.currentUser = some user) (named : user.displayName = some name) :
    appearance d = ⟨some (.observe user.uid),
      some {({d with newUser := false} : Device).refresh with displayNameLabel := name}⟩ := by
  simp only [appearance,viewDidAppear_named signed named,welcome_request,Effect.request]

theorem commitDelete_rules {row : Nat} (inside : row < d.table.length) :
    Reacts auto server d (.delete row) (commitDelete d row) := by
  by_cases missing : d.currentUser = none ∨ d.posts[row]?.bind Post.id = none
  · rw [commitDelete_lost missing]
    exact .deleteTrap inside missing
  · obtain ⟨signed,found⟩ := not_or.mp missing
    obtain ⟨user,signed⟩ := Option.ne_none_iff_exists'.mp signed
    obtain ⟨key,found⟩ := Option.ne_none_iff_exists'.mp found
    obtain ⟨post,here,named⟩ := Option.bind_eq_some_iff.mp found
    rw [commitDelete_found signed here named]
    by_cases rows : d.table.length = d.posts.length
    · rw [if_pos rows]
      exact .delete inside signed here named rows
    · rw [if_neg rows]
      exact .deleteRaise inside signed here named rows

theorem cellForRowAt_rules {row cell : Nat} (inside : row < d.table.length) :
    Reacts auto server d (.cellForRowAt row cell) ⟨none,cellForRowAt d row cell⟩ := by
  by_cases empty : d.posts = []
  · simp only [cellForRowAt,empty,List.length_nil,Nat.lt_irrefl,if_false]
    exact .cellEmpty inside empty
  · by_cases lost : ∀ post, d.posts[row]? = some post → post.image = none ∧ (d.currentUser = none ∨ post.id = none)
    · rw [cellForRowAt_lost empty lost]
      exact .cellTrap inside empty lost
    · simp only [not_forall,not_and,not_or] at lost
      obtain ⟨post,found,present⟩ := lost
      cases photo : post.image with
      | some image => rw [cellForRowAt_image found photo]; exact .cellImage inside found photo
      | none =>
          obtain ⟨signed,named⟩ := present photo
          obtain ⟨user,signed⟩ := Option.ne_none_iff_exists'.mp signed
          obtain ⟨id,named⟩ := Option.ne_none_iff_exists'.mp named
          rw [cellForRowAt_request found photo signed named]
          exact .cellRequest inside found photo signed named

theorem react_sound (reacted : react auto server d action = some reaction) : Reacts auto server d action reaction := by
  cases action with
  | signIn user => cases reacted; exact .signIn
  | register uid => cases reacted; exact .register
  | signOut => cases reacted; exact .signOut
  | profileChanged name =>
      obtain ⟨user,signed,rfl⟩ := Option.map_eq_some_iff.mp reacted
      exact .profileChanged signed
  | viewDidAppear =>
      cases reacted
      cases signed : d.currentUser with
      | none => rw [appearance_signedOut signed]; exact .appearOut signed
      | some user =>
          cases named : user.displayName with
          | none => rw [appearance_unnamed signed named]; exact .appearUnnamed signed named
          | some name => rw [appearance_named signed named]; exact .appearNamed signed named
  | saveNewPost form =>
      cases reacted
      by_cases text : form.text = ""
      · rw [saveNewPost_refused (.inl text)]; exact .refused (.inl text)
      · cases photo : form.image with
        | none => rw [saveNewPost_refused (.inr photo)]; exact .refused (.inr photo)
        | some image =>
            cases signed : d.currentUser with
            | none =>
                have picked : form.image ≠ none := by simp [photo]
                rw [saveNewPost_trap text picked signed]; exact .saveTrap text picked signed
            | some user =>
                rw [saveNewPost_saved text photo signed]
                cases encoded : image.jpeg with
                | none => exact .saveUnencoded text photo signed encoded
                | some data => exact .save text photo signed encoded
  | uploadDone index ok =>
      obtain ⟨upload,pending,rfl⟩ := Option.map_eq_some_iff.mp reacted
      cases ok with
      | false => exact .uploadFailed pending
      | true =>
          obtain ⟨path,data,closure⟩ := upload
          cases closure with
          | post post => exact .uploaded pending
          | profilePhoto => exact .profileUploaded pending
  | deliver index =>
      simp only [react] at reacted
      split at reacted
      · rename_i uid snapshot rest waiting
        cases reacted
        by_cases empty : snapshot.rows = []
        · rw [fetchData_empty _ _ empty]; exact .deliverEmpty waiting empty
        · rw [fetchData_exact _ _ empty]
          cases reads : snapshot.rows.mapM fun row => readPost row.2 with
          | none => exact .deliverTrap waiting reads
          | some posts => exact .deliver waiting empty reads
      · cases reacted
  | delete row =>
      simp only [react,Option.ite_none_right_eq_some,Option.some.injEq] at reacted
      obtain ⟨inside,rfl⟩ := reacted
      exact commitDelete_rules inside
  | cellForRowAt row cell =>
      simp only [react,Option.ite_none_right_eq_some,Option.some.injEq] at reacted
      obtain ⟨inside,rfl⟩ := reacted
      exact cellForRowAt_rules inside
  | urlDone index found =>
      obtain ⟨request,pending,rfl⟩ := Option.map_eq_some_iff.mp reacted
      cases found with
      | false => exact .urlFailed pending
      | true =>
          by_cases inside : request.item < d.posts.length
          · rw [urlClosure_found (d := {d with urls := d.urls.eraseIdx index}) inside]
            exact .urlFound pending inside
          · have past := Nat.not_lt.mp inside
            rw [urlClosure_past (d := {d with urls := d.urls.eraseIdx index}) past]
            exact .urlTrap pending past
  | uploadProfilePhoto image =>
      cases reacted
      by_cases lost : image.jpeg = none ∨ d.currentUser = none
      · rw [uploadProfilePhoto_lost lost]; exact .profilePhotoTrap lost
      · obtain ⟨encoded,signed⟩ := not_or.mp lost
        obtain ⟨data,encoded⟩ := Option.ne_none_iff_exists'.mp encoded
        obtain ⟨user,signed⟩ := Option.ne_none_iff_exists'.mp signed
        rw [uploadProfilePhoto_put encoded signed]
        exact .profilePhoto encoded signed

theorem react_complete (rule : Reacts auto server d action reaction) : react auto server d action = some reaction := by
  cases rule with
  | signIn => rfl
  | register => rfl
  | signOut => rfl
  | profileChanged signed => simp [react,signed]
  | appearOut nobody => simp only [react,appearance_signedOut nobody]
  | appearUnnamed signed unnamed => simp only [react,appearance_unnamed signed unnamed]
  | appearNamed signed named => simp only [react,appearance_named signed named]
  | refused incomplete => simp only [react,saveNewPost_refused incomplete]
  | saveTrap text photo nobody => simp only [react,saveNewPost_trap text photo nobody]
  | save text photo signed encoded => simp only [react,saveNewPost_saved text photo signed,encoded,Option.map_some]
  | saveUnencoded text photo signed unencoded =>
      simp only [react,saveNewPost_saved text photo signed,unencoded,Option.map_none]
  | uploaded pending => simp [react,pending,uploadClosure]
  | profileUploaded pending => simp [react,pending,uploadClosure]
  | uploadFailed pending => simp [react,pending,uploadClosure]
  | deliverEmpty waiting empty => simp [react,waiting,fetchData_empty _ _ empty]
  | deliver waiting nonempty reads => simp [react,waiting,fetchData_shown _ _ _ nonempty reads]
  | @deliverTrap index uid snapshot rest waiting mistyped =>
      have nonempty : snapshot.rows ≠ [] := fun empty => by simp [empty] at mistyped
      simp [react,waiting,fetchData_exact _ _ nonempty,mistyped]
  | delete inside signed found named rows =>
      simp only [react,if_pos inside,commitDelete_found signed found named,if_pos rows]
  | deleteRaise inside signed found named rows =>
      simp only [react,if_pos inside,commitDelete_found signed found named,if_neg rows]
  | deleteTrap inside missing => simp only [react,if_pos inside,commitDelete_lost missing]
  | cellEmpty inside empty => simp [react,inside,cellForRowAt,empty]
  | cellImage inside found photo => simp [react,inside,cellForRowAt_image found photo]
  | cellRequest inside found photo signed named =>
      simp [react,inside,cellForRowAt_request found photo signed named]
  | cellTrap inside nonempty lost => simp [react,inside,cellForRowAt_lost nonempty lost]
  | urlFailed pending => simp [react,pending,urlClosure_error]
  | @urlFound index request pending inside =>
      simp only [react,pending,Option.map_some,Option.some.injEq,Reaction.mk.injEq,true_and]
      exact urlClosure_found (d := {d with urls := d.urls.eraseIdx index}) inside
  | @urlTrap index request pending past =>
      simp only [react,pending,Option.map_some,Option.some.injEq,Reaction.mk.injEq,true_and]
      exact urlClosure_past (d := {d with urls := d.urls.eraseIdx index}) past
  | profilePhoto encoded signed => simp only [react,uploadProfilePhoto_put encoded signed]
  | profilePhotoTrap lost => simp only [react,uploadProfilePhoto_lost lost]

end Journey
