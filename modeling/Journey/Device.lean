import Journey.KeyedStore
import Journey.Post

namespace Journey

structure User where
  uid : String
  displayName : Option String
  deriving DecidableEq, Repr

-- The photo view of a cell shows a picture of its own or, after setImage(with:),
-- the one behind a download URL, named here by its storage path.
inductive Photo where
  | image (image : UIImage)
  | stored (path : List String)
  deriving DecidableEq, Repr

structure PostCell where
  locationLabel : String
  timeLabel : String
  postText : String
  postPhoto : Option Photo
  deriving DecidableEq, Repr

abbrev Snapshot := KeyedStore String Child

-- An observer attached by fetchData on posts/uid, with what it has still to be
-- given. Nothing in the program detaches one.
structure Observer where
  uid : String
  queue : List Snapshot

inductive UploadClosure where
  | post (post : Post)
  | profilePhoto
  deriving DecidableEq, Repr

structure Upload where
  path : List String
  data : List UInt8
  closure : UploadClosure
  deriving DecidableEq, Repr

structure UrlRequest where
  cell : Nat
  item : Nat
  post : Post
  path : List String
  deriving DecidableEq, Repr

-- One process of the app: the session, appDelegate, what JourneyTVC shows and
-- the closures that are still to be called. `table` is what the table view read
-- at its last reload or row deletion; a process that trapped does not run.
structure Device where
  running : Bool
  currentUser : Option User
  newUser : Bool
  posts : List Post
  table : List Post
  postCountLabel : String
  displayNameLabel : String
  cells : Nat → PostCell
  observers : List Observer
  uploads : List Upload
  urls : List UrlRequest

def defaultDisplayName : String := "John Smith"

def PostCell.blank : PostCell := ⟨"","","",none⟩

def Device.launched : Device :=
  {running := true,currentUser := none,newUser := false,posts := [],table := [],postCountLabel := "0 Posts",
   displayNameLabel := defaultDisplayName,cells := fun _ => .blank,observers := [],uploads := [],urls := []}

def Device.uid (d : Device) : Option String := d.currentUser.map User.uid

def Device.ids (d : Device) : List (Option String) := d.posts.map Post.id

-- tableView.reloadData(): numberOfRowsInSection and cellForRowAt read the list.
def Device.reloadData (d : Device) : Device := {d with table := d.posts}

def Device.setCell (d : Device) (cell : Nat) (change : PostCell → PostCell) : Device :=
  {d with cells := fun c => if c = cell then change (d.cells c) else d.cells c}

def Device.local (d : Device) : Device := {d with observers := []}

-- What a device asks of the backend. The record of a setValue is built from
-- `post`; putObject is the moment at which an upload has succeeded.
inductive Request where
  | setValue (uid key : String) (post : Post)
  | removeValue (uid key : String)
  | putObject (path : List String) (data : List UInt8)
  | observe (uid : String)
  deriving DecidableEq, Repr

-- What a device does with an event: the request it issues, then the device it
-- becomes, or `none` when it traps. A request issued before a trap still stands.
structure Reaction where
  request : Option Request
  device : Option Device

def Device.receive (d : Device) (uid : String) (snapshot : Snapshot) : Device :=
  {d with observers := d.observers.map fun o => if o.uid = uid then {o with queue := o.queue ++ [snapshot]} else o}

def Device.attach (d : Device) (uid : String) (snapshot : Snapshot) : Device :=
  {d with observers := d.observers ++ [⟨uid,[snapshot]⟩]}

@[simp] theorem attach_local (d : Device) (uid : String) (snapshot : Snapshot) :
    (d.attach uid snapshot).local = d.local := rfl

@[simp] theorem local_running (d : Device) : d.local.running = d.running := rfl
@[simp] theorem local_currentUser (d : Device) : d.local.currentUser = d.currentUser := rfl
@[simp] theorem local_posts (d : Device) : d.local.posts = d.posts := rfl
@[simp] theorem local_table (d : Device) : d.local.table = d.table := rfl
@[simp] theorem local_uploads (d : Device) : d.local.uploads = d.uploads := rfl
@[simp] theorem local_urls (d : Device) : d.local.urls = d.urls := rfl

theorem told_observers {observers : List Observer} {P : Observer → Prop} {index : Nat} {uid : String}
    {snapshot : Snapshot} {rest : List Snapshot} (all : ∀ o ∈ observers, P o)
    (waiting : observers[index]? = some ⟨uid,snapshot :: rest⟩) (keeps : P ⟨uid,snapshot :: rest⟩ → P ⟨uid,rest⟩) :
    ∀ o ∈ observers.set index ⟨uid,rest⟩, P o := by
  intro o member
  rcases List.mem_or_eq_of_mem_set member with old | rfl
  · exact all o old
  · exact keeps (all _ (List.mem_of_getElem? waiting))

end Journey
