import Journey.Device

namespace Journey

structure Form where
  text : String
  location : String
  date : String
  image : Option UIImage
  deriving DecidableEq, Repr

-- saveImageToDatabase; `imageData!` traps for an image without JPEG data.
def saveImageToDatabase (d : Device) (image : UIImage) (post : Post) : Option Device := do
  let imageData ← image.jpeg
  let user ← d.currentUser
  let id ← post.id
  return {d with uploads := d.uploads ++ [⟨[user.uid,"posts",id],imageData,.post post⟩]}

-- The record is written before the photo is encoded, so it stands even when
-- the encoding traps.
def saveToDatabaseAndAddToArtistsArray (d : Device) (post : Post) (image : UIImage) : Reaction :=
  match d.currentUser,post.id with
  | some user,some id => ⟨some (.setValue user.uid id post),saveImageToDatabase d image post⟩
  | _,_ => ⟨none,none⟩

-- saveNewPost with the key that childByAutoId draws for it. A form without a
-- text or a photo is refused with a message.
def saveNewPost (key : String) (d : Device) (form : Form) : Reaction :=
  match form.image with
  | none => ⟨none,some d⟩
  | some image =>
    if form.text = "" then ⟨none,some d⟩
    else
      saveToDatabaseAndAddToArtistsArray d
        {id := some key,text := form.text,location := form.location,date := form.date,image := some image} image

-- The closures of the two putData calls, here and in SettingsVC. Only the one of
-- a post touches the list.
def uploadClosure (d : Device) (upload : Upload) (ok : Bool) : Reaction :=
  if ok then
    match upload.closure with
    | .post post => ⟨some (.putObject upload.path upload.data),some {d with posts := d.posts ++ [post]}⟩
    | .profilePhoto => ⟨some (.putObject upload.path upload.data),some d⟩
  else ⟨none,some d⟩

def Form.post (form : Form) (key : String) : Post :=
  {id := some key,text := form.text,location := form.location,date := form.date,image := form.image}

def Upload.ofPost (uid key : String) (data : List UInt8) (post : Post) : Upload :=
  ⟨[uid,"posts",key],data,.post post⟩

theorem saveNewPost_refused {key : String} {d : Device} {form : Form}
    (incomplete : form.text = "" ∨ form.image = none) :
    saveNewPost key d form = ⟨none,some d⟩ := by
  rcases incomplete with blank | missing
  · cases photo : form.image <;> simp [saveNewPost,photo,blank]
  · simp [saveNewPost,missing]

theorem saveNewPost_trap {key : String} {d : Device} {form : Form} (text : form.text ≠ "") (photo : form.image ≠ none)
    (nobody : d.currentUser = none) : saveNewPost key d form = ⟨none,none⟩ := by
  obtain ⟨image,picture⟩ := Option.ne_none_iff_exists'.mp photo
  simp [saveNewPost,picture,text,saveToDatabaseAndAddToArtistsArray,nobody]

theorem saveNewPost_saved {key : String} {d : Device} {form : Form} {user : User} {image : UIImage}
    (text : form.text ≠ "") (photo : form.image = some image) (signed : d.currentUser = some user) :
    saveNewPost key d form = ⟨some (.setValue user.uid key (form.post key)),image.jpeg.map fun data =>
      {d with uploads := d.uploads ++ [.ofPost user.uid key data (form.post key)]}⟩ := by
  cases encoded : image.jpeg <;>
    simp [saveNewPost,photo,text,saveToDatabaseAndAddToArtistsArray,signed,saveImageToDatabase,encoded,
      Form.post,Upload.ofPost]

end Journey
