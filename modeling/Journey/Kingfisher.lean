import Mathlib.Logic.Function.Basic
import Journey.MD5
import Journey.Runs

namespace Kingfisher

-- setImage(with:) of an image view, over the cache and the downloader that all
-- views share: `V` are the views, `U` the URLs, which are their own cache keys, and
-- `K` the names of files.
structure ImageView (U I : Type) where
  image : Option I
  webURL : Option U
  deriving DecidableEq, Repr

inductive IOBlock (V U I : Type) where
  | load (view : V) (url : U)
  | write (url : U) (image : I)
  deriving DecidableEq, Repr

inductive MainBlock (V U I : Type) where
  | loaded (view : V) (url : U) (image : Option I)
  | downloaded (view : V) (url : U) (image : Option I)
  deriving DecidableEq, Repr

-- A URL that is being downloaded has one load, with the views to be told; no
-- contents is no load.
structure State (V U K I : Type) where
  view : V → ImageView U I
  memoryCache : U → Option I
  disk : K → Option I
  ioQueue : List (IOBlock V U I)
  mainQueue : List (MainBlock V U I)
  fetchLoads : U → List V

inductive Event (V U K I : Type) where
  | setImage (view : V) (resource : Option U)
  | assign (view : V) (image : Option I)
  | io
  | main
  | processImage (url : U) (image : Option I)
  | purge (url : U)
  | expire (file : K)
  deriving DecidableEq, Repr

variable {V U K I : Type} [DecidableEq V] [DecidableEq U]

def State.empty : State V U K I := ⟨fun _ => ⟨none,none⟩,fun _ => none,fun _ => none,[],[],fun _ => []⟩

def State.show (s : State V U K I) (v : V) (view : ImageView U I) : State V U K I :=
  {s with view := Function.update s.view v view}

-- The completion in setImage: a view that has gone on to another URL drops it.
def completionHandler (s : State V U K I) (v : V) (url : U) (image : Option I) : State V U K I :=
  if (s.view v).webURL = some url then
    match image with
    | some image => s.show v {s.view v with image := some image}
    | none => s
  else s

def downloadImage (s : State V U K I) (v : V) (url : U) : State V U K I :=
  {s with fetchLoads := Function.update s.fetchLoads url (s.fetchLoads url ++ [v])}

def store (s : State V U K I) (url : U) (image : I) : State V U K I :=
  {s with memoryCache := Function.update s.memoryCache url (some image),ioQueue := s.ioQueue ++ [.write url image]}

-- An image in memory is set at once, before setImage returns.
def retrieveImage (s : State V U K I) (v : V) (url : U) : State V U K I :=
  match s.memoryCache url with
  | some image => completionHandler s v url (some image)
  | none => {s with ioQueue := s.ioQueue ++ [.load v url]}

def setImage (s : State V U K I) (v : V) : Option U → State V U K I
  | none => s.show v ⟨none,none⟩
  | some url => retrieveImage (s.show v ⟨none,some url⟩) v url

def IOBlock.run [DecidableEq K] (name : U → K) (s : State V U K I) : IOBlock V U I → State V U K I
  | .load v url => match s.disk (name url) with
      | some image => {s with memoryCache := Function.update s.memoryCache url (some image),
                              mainQueue := s.mainQueue ++ [.loaded v url (some image)]}
      | none => {s with mainQueue := s.mainQueue ++ [.loaded v url none]}
  | .write url image => {s with disk := Function.update s.disk (name url) (some image)}

def MainBlock.run (s : State V U K I) : MainBlock V U I → State V U K I
  | .loaded v url (some image) => completionHandler s v url (some image)
  | .loaded v url none => downloadImage s v url
  | .downloaded v url (some image) => completionHandler (store s url image) v url (some image)
  | .downloaded v url none => completionHandler s v url none

-- The end of a download; data that is no image ends it like an error.
def processImage (s : State V U K I) (url : U) (image : Option I) : State V U K I :=
  {s with fetchLoads := Function.update s.fetchLoads url [],
          mainQueue := s.mainQueue ++ (s.fetchLoads url).map (.downloaded · url image)}

def step [DecidableEq K] (name : U → K) (s : State V U K I) : Event V U K I → Option (State V U K I)
  | .setImage v resource => some (setImage s v resource)
  | .assign v image => some (s.show v {s.view v with image})
  | .io => match s.ioQueue with
      | [] => none
      | block :: rest => some (block.run name {s with ioQueue := rest})
  | .main => match s.mainQueue with
      | [] => none
      | block :: rest => some (block.run {s with mainQueue := rest})
  | .processImage url image => if s.fetchLoads url = [] then none else some (processImage s url image)
  | .purge url => some {s with memoryCache := Function.update s.memoryCache url none}
  | .expire file => some {s with disk := Function.update s.disk file none}

abbrev run [DecidableEq K] (name : U → K) : State V U K I → List (Event V U K I) → Option (State V U K I) :=
  Runs.run (step name)

def IOBlock.retrieval : IOBlock V U I → Option (V × U)
  | .load v url => some (v,url)
  | .write _ _ => none

def MainBlock.retrieval : MainBlock V U I → V × U
  | .loaded v url _ | .downloaded v url _ => (v,url)

def State.Waits (s : State V U K I) (v : V) (url : U) : Prop :=
  (v,url) ∈ s.ioQueue.filterMap IOBlock.retrieval ∨ (v,url) ∈ s.mainQueue.map MainBlock.retrieval ∨
    v ∈ s.fetchLoads url

instance (s : State V U K I) (v : V) (url : U) : Decidable (s.Waits v url) := inferInstanceAs (Decidable (_ ∨ _))

def State.Idle (s : State V U K I) (v : V) : Prop := ∀ url ∈ (s.view v).webURL, ¬ s.Waits v url

instance (s : State V U K I) (v : V) : Decidable (s.Idle v) :=
  inferInstanceAs (Decidable (∀ url ∈ (s.view v).webURL, ¬ s.Waits v url))

-- What a view comes to show when every retrieval brings the content of its URL.
def settled (content : U → I) (s : State V U K I) (v : V) : Option I :=
  match (s.view v).webURL with
  | some url => if s.Waits v url then some (content url) else (s.view v).image
  | none => (s.view v).image

def written (content : U → I) (v : V) (s : State V U K I) : Event V U K I → Option (Option I)
  | .setImage x resource => if x = v then some (resource.map content) else none
  | .assign x image => if x = v then some (match (s.view v).webURL with
      | some url => if s.Waits v url then some (content url) else image
      | none => image) else none
  | _ => none

section

variable {name : U → K} {content : U → I} {brings : U → I → Prop} {s t before : State V U K I} {v x : V} {url : U}
    {event : Event V U K I}

@[simp] theorem completion_memoryCache (image : Option I) :
    (completionHandler s v url image).memoryCache = s.memoryCache := by
  unfold completionHandler; split <;> [split; skip] <;> rfl
@[simp] theorem completion_disk (image : Option I) : (completionHandler s v url image).disk = s.disk := by
  unfold completionHandler; split <;> [split; skip] <;> rfl
@[simp] theorem completion_ioQueue (image : Option I) : (completionHandler s v url image).ioQueue = s.ioQueue := by
  unfold completionHandler; split <;> [split; skip] <;> rfl
@[simp] theorem completion_mainQueue (image : Option I) :
    (completionHandler s v url image).mainQueue = s.mainQueue := by
  unfold completionHandler; split <;> [split; skip] <;> rfl
@[simp] theorem completion_fetchLoads (image : Option I) :
    (completionHandler s v url image).fetchLoads = s.fetchLoads := by
  unfold completionHandler; split <;> [split; skip] <;> rfl

theorem completion_waits (image : Option I) (x : V) (u : U) :
    (completionHandler s v url image).Waits x u ↔ s.Waits x u := by simp [State.Waits]

structure Sourced (name : U → K) (brings : U → I → Prop) (s : State V U K I) : Prop where
  memory : ∀ url image, s.memoryCache url = some image → brings url image
  disk : ∀ url image, s.disk (name url) = some image → brings url image
  writes : ∀ url image, IOBlock.write url image ∈ s.ioQueue → brings url image
  loaded : ∀ v url image, MainBlock.loaded v url (some image) ∈ s.mainQueue → brings url image
  downloaded : ∀ v url image, MainBlock.downloaded v url (some image) ∈ s.mainQueue → brings url image

def Shared (name : U → K) (brings : U → I → Prop) : Prop :=
  ∀ url other image, name url = name other → brings url image → brings other image

abbrev Exact (content : U → I) : U → I → Prop := fun url image => image = content url

omit [DecidableEq U] in
theorem shared_id : Shared (id : U → U) brings := by
  intro url other image same genuine
  cases same
  exact genuine

def Genuine (brings : U → I → Prop) : Event V U K I → Prop
  | .processImage url image => ∀ i, image = some i → brings url i
  | _ => True

def Event.Good : Event V U K I → Prop
  | .processImage _ image => image ≠ none
  | _ => True

def State.Complete (s : State V U K I) : Prop := ∀ v url, MainBlock.downloaded v url none ∉ s.mainQueue

theorem update_sourced {cache : U → Option I} (old : ∀ url image, cache url = some image → brings url image)
    {image : Option I} (new : ∀ i, image = some i → brings url i) :
    ∀ u i, Function.update cache url image u = some i → brings u i := by
  intro u i kept
  by_cases same : u = url
  · subst same
    exact new i (by simpa using kept)
  · exact old u i (by simpa [same] using kept)

omit [DecidableEq U] in
theorem file_sourced [DecidableEq K] {disk : K → Option I} {file : K}
    (old : ∀ url image, disk (name url) = some image → brings url image) {image : Option I}
    (new : ∀ u i, name u = file → image = some i → brings u i) :
    ∀ u i, Function.update disk file image (name u) = some i → brings u i := by
  intro u i kept
  by_cases same : name u = file
  · exact new u i same (by simpa [same] using kept)
  · exact old u i (by simpa [same] using kept)

theorem Sourced.completion (sourced : Sourced name brings s) (v : V) (url : U) (image : Option I) :
    Sourced name brings (completionHandler s v url image) where
  memory := by simpa using sourced.memory
  disk := by simpa using sourced.disk
  writes := by simpa using sourced.writes
  loaded := by simpa using sourced.loaded
  downloaded := by simpa using sourced.downloaded

omit [DecidableEq V] in
theorem Sourced.store {image : I} (sourced : Sourced name brings s) (genuine : brings url image) :
    Sourced name brings (store s url image) where
  memory := update_sourced sourced.memory (by simpa using genuine)
  disk := sourced.disk
  writes u i member := by
    rcases List.mem_append.mp member with old | new
    · exact sourced.writes u i old
    · cases List.mem_singleton.mp new
      exact genuine
  loaded := sourced.loaded
  downloaded := sourced.downloaded

omit [DecidableEq V] in
theorem io_sourced [DecidableEq K] {block : IOBlock V U I} {rest : List (IOBlock V U I)} (shared : Shared name brings)
    (sourced : Sourced name brings s) (queue : s.ioQueue = block :: rest) :
    Sourced name brings (block.run name {s with ioQueue := rest}) := by
  have later : ∀ url image, IOBlock.write url image ∈ rest → brings url image :=
    fun url image member => sourced.writes url image (queue ▸ List.mem_cons_of_mem _ member)
  cases block with
  | load v url =>
      cases found : s.disk (name url) with
      | none =>
          simp only [IOBlock.run,found]
          exact ⟨sourced.memory,sourced.disk,later,by simpa using sourced.loaded,by simpa using sourced.downloaded⟩
      | some image =>
          have genuine := sourced.disk url image found
          simp only [IOBlock.run,found]
          refine ⟨update_sourced sourced.memory (by simpa using genuine),sourced.disk,later,?_,
            by simpa using sourced.downloaded⟩
          intro x u i member
          rcases List.mem_append.mp member with old | new
          · exact sourced.loaded x u i old
          · cases List.mem_singleton.mp new
            exact genuine
  | write url image =>
      have genuine := sourced.writes url image (queue ▸ List.mem_cons_self)
      refine ⟨sourced.memory,file_sourced sourced.disk ?_,later,sourced.loaded,sourced.downloaded⟩
      intro u i same brought
      cases brought
      exact shared url u image same.symm genuine

theorem main_sourced {block : MainBlock V U I} {rest : List (MainBlock V U I)} (sourced : Sourced name brings s)
    (queue : s.mainQueue = block :: rest) : Sourced name brings (block.run {s with mainQueue := rest}) := by
  have left : Sourced name brings {s with mainQueue := rest} :=
    ⟨sourced.memory,sourced.disk,sourced.writes,
      fun v url image member => sourced.loaded v url image (queue ▸ List.mem_cons_of_mem _ member),
      fun v url image member => sourced.downloaded v url image (queue ▸ List.mem_cons_of_mem _ member)⟩
  cases block with
  | loaded v url image =>
      cases image with
      | none => exact ⟨left.memory,left.disk,left.writes,left.loaded,left.downloaded⟩
      | some image => exact left.completion v url (some image)
  | downloaded v url image =>
      cases image with
      | none => exact left.completion v url none
      | some image =>
          have genuine := sourced.downloaded v url image (queue ▸ List.mem_cons_self)
          exact (left.store genuine).completion v url (some image)

theorem setImage_cached {image : I} (cached : s.memoryCache url = some image) :
    setImage s v (some url) = s.show v ⟨some image,some url⟩ := by
  simp [setImage,retrieveImage,State.show,cached,completionHandler]

theorem setImage_uncached (missing : s.memoryCache url = none) : setImage s v (some url) =
    {s with view := Function.update s.view v ⟨none,some url⟩,ioQueue := s.ioQueue ++ [.load v url]} := by
  simp [setImage,retrieveImage,State.show,missing]

theorem setImage_sourced (sourced : Sourced name brings s) (v : V) (resource : Option U) :
    Sourced name brings (setImage s v resource) := by
  cases resource with
  | none => exact ⟨sourced.memory,sourced.disk,sourced.writes,sourced.loaded,sourced.downloaded⟩
  | some url =>
      cases cached : s.memoryCache url with
      | some image =>
          rw [setImage_cached cached]
          exact ⟨sourced.memory,sourced.disk,sourced.writes,sourced.loaded,sourced.downloaded⟩
      | none =>
          rw [setImage_uncached cached]
          exact ⟨sourced.memory,sourced.disk,by simpa using sourced.writes,sourced.loaded,sourced.downloaded⟩

theorem step_sourced [DecidableEq K] (shared : Shared name brings) (sourced : Sourced name brings s)
    (genuine : Genuine brings event) (taken : step name s event = some t) : Sourced name brings t := by
  cases event with
  | setImage v resource => cases taken; exact setImage_sourced sourced v resource
  | assign v image =>
      cases taken
      exact ⟨sourced.memory,sourced.disk,sourced.writes,sourced.loaded,sourced.downloaded⟩
  | io =>
      cases queue : s.ioQueue with
      | nil => simp [step,queue] at taken
      | cons block rest =>
          simp only [step,queue,Option.some.injEq] at taken
          exact taken ▸ io_sourced shared sourced queue
  | main =>
      cases queue : s.mainQueue with
      | nil => simp [step,queue] at taken
      | cons block rest =>
          simp only [step,queue,Option.some.injEq] at taken
          exact taken ▸ main_sourced sourced queue
  | processImage url image =>
      obtain ⟨_,done⟩ := Option.ite_none_left_eq_some.mp taken
      cases done
      refine ⟨sourced.memory,sourced.disk,sourced.writes,?_,?_⟩
      · intro x u i member
        rcases List.mem_append.mp member with old | new
        · exact sourced.loaded x u i old
        · simp at new
      · intro x u i member
        rcases List.mem_append.mp member with old | new
        · exact sourced.downloaded x u i old
        · obtain ⟨y,_,same⟩ := List.mem_map.mp new
          cases same
          exact genuine i rfl
  | purge url =>
      cases taken
      exact ⟨update_sourced sourced.memory (by simp),sourced.disk,sourced.writes,sourced.loaded,sourced.downloaded⟩
  | expire file =>
      cases taken
      exact ⟨sourced.memory,file_sourced sourced.disk (by simp),sourced.writes,sourced.loaded,sourced.downloaded⟩

theorem settled_same (view : t.view x = s.view x)
    (waits : ∀ u, (s.view x).webURL = some u → (t.Waits x u ↔ s.Waits x u)) :
    settled content t x = settled content s x := by
  unfold settled
  rw [view]
  cases asked : (s.view x).webURL with
  | none => rfl
  | some u => simp only [waits u asked]

theorem settled_completion (before : State V U K I) (view : s.view = before.view)
    (waits : ∀ y u, before.Waits y u ↔ (y = v ∧ u = url) ∨ s.Waits y u) (x : V) :
    settled content (completionHandler s v url (some (content url))) x = settled content before x := by
  by_cases asked : (s.view v).webURL = some url
  · have done : completionHandler s v url (some (content url)) =
        s.show v {s.view v with image := some (content url)} := if_pos asked
    by_cases here : x = v
    · subst here
      have due : before.Waits x url := (waits x url).mpr (.inl ⟨rfl,rfl⟩)
      have was : settled content before x = some (content url) := by simp [settled,← view,asked,due]
      rw [was,done]
      simp [settled,State.show,asked]
    · rw [done]
      refine settled_same (by simp [State.show,here,view]) fun u _ => ?_
      rw [waits x u]
      simp [here,State.show,State.Waits]
  · have dropped : completionHandler s v url (some (content url)) = s := if_neg asked
    rw [dropped]
    refine settled_same (congrFun view x) fun u wants => ?_
    rw [waits x u,or_iff_right]
    intro both
    obtain ⟨rfl,rfl⟩ := both
    exact asked (view ▸ wants)

omit [DecidableEq V] in
theorem io_waits [DecidableEq K] {block : IOBlock V U I} {rest : List (IOBlock V U I)}
    (queue : s.ioQueue = block :: rest) (x : V) (u : U) :
    (block.run name {s with ioQueue := rest}).Waits x u ↔ s.Waits x u := by
  cases block with
  | load v url =>
      cases found : s.disk (name url) with
      | none | some image =>
          simp only [IOBlock.run,found,State.Waits,queue,List.filterMap_cons,IOBlock.retrieval,List.map_append,
            List.map_cons,List.map_nil,MainBlock.retrieval,List.mem_append,List.mem_cons,List.not_mem_nil]
          grind
  | write url image => simp [IOBlock.run,State.Waits,queue,IOBlock.retrieval]

omit [DecidableEq V] in
theorem loaded_waits {v : V} {url : U} {rest : List (MainBlock V U I)}
    (queue : s.mainQueue = .loaded v url none :: rest) (x : V) (u : U) :
    (downloadImage {s with mainQueue := rest} v url).Waits x u ↔ s.Waits x u := by
  simp only [downloadImage,State.Waits,queue,List.map_cons,MainBlock.retrieval,List.mem_cons,Prod.mk.injEq,
    Function.update_apply]
  by_cases same : u = url
  · subst same
    simp
    grind
  · simp [same]

omit [DecidableEq V] [DecidableEq U] in
theorem popped_waits {block : MainBlock V U I} {rest : List (MainBlock V U I)} (queue : s.mainQueue = block :: rest)
    (x : V) (u : U) : s.Waits x u ↔ (x,u) = block.retrieval ∨ State.Waits {s with mainQueue := rest} x u := by
  simp only [State.Waits,queue,List.map_cons,List.mem_cons]
  grind

omit [DecidableEq V] in
theorem store_waits (image : I) (x : V) (u : U) : (store s url image).Waits x u ↔ s.Waits x u := by
  simp [State.Waits,store,IOBlock.retrieval]

omit [DecidableEq V] in
theorem process_waits (image : Option I) (x : V) (u : U) : (processImage s url image).Waits x u ↔ s.Waits x u := by
  simp only [processImage,State.Waits,List.map_append,List.map_map,List.mem_append,Function.update_apply]
  by_cases same : u = url
  · subst same
    simp [MainBlock.retrieval,Function.comp_def]
  · simp [same,Ne.symm same,MainBlock.retrieval,Function.comp_def]

theorem settled_io [DecidableEq K] {block : IOBlock V U I} {rest : List (IOBlock V U I)}
    (queue : s.ioQueue = block :: rest) (x : V) :
    settled content (block.run name {s with ioQueue := rest}) x = settled content s x := by
  refine settled_same ?_ fun u _ => io_waits queue x u
  cases block with
  | load v url => cases found : s.disk (name url) <;> simp [IOBlock.run,found]
  | write url image => rfl

theorem settled_main {block : MainBlock V U I} {rest : List (MainBlock V U I)}
    (sourced : Sourced name (Exact content) s) (complete : s.Complete) (queue : s.mainQueue = block :: rest) (x : V) :
    settled content (block.run {s with mainQueue := rest}) x = settled content s x := by
  cases block with
  | loaded v url image =>
      cases image with
      | none => exact settled_same rfl fun u _ => loaded_waits queue x u
      | some image =>
          cases sourced.loaded v url image (queue ▸ List.mem_cons_self)
          change settled content (completionHandler {s with mainQueue := rest} v url (some (content url))) x = _
          refine settled_completion s (by rfl) (fun y u => ?_) x
          rw [popped_waits queue,MainBlock.retrieval,Prod.mk.injEq]
  | downloaded v url image =>
      cases image with
      | none => exact absurd (queue ▸ List.mem_cons_self) (complete v url)
      | some image =>
          cases sourced.downloaded v url image (queue ▸ List.mem_cons_self)
          change settled content
            (completionHandler (store {s with mainQueue := rest} url (content url)) v url (some (content url))) x = _
          refine settled_completion s (by rfl) (fun y u => ?_) x
          rw [popped_waits queue,MainBlock.retrieval,Prod.mk.injEq,store_waits]

theorem settled_setImage (sourced : Sourced name (Exact content) s) (v : V) (resource : Option U) (x : V) :
    settled content (setImage s v resource) x =
      (written content x s (.setImage v resource)).getD (settled content s x) := by
  by_cases here : v = x
  · subst here
    rw [written,if_pos rfl,Option.getD_some]
    cases resource with
    | none => simp [settled,setImage,State.show]
    | some url =>
        cases cached : s.memoryCache url with
        | some image =>
            rw [setImage_cached cached,sourced.memory url image cached]
            simp [settled,State.show]
        | none =>
            rw [setImage_uncached cached]
            simp [settled,State.Waits,IOBlock.retrieval]
  · rw [written,if_neg here,Option.getD_none]
    cases resource with
    | none => exact settled_same (by simp [setImage,State.show,Ne.symm here]) fun u _ => Iff.rfl
    | some url =>
        cases cached : s.memoryCache url with
        | some image =>
            rw [setImage_cached cached]
            exact settled_same (by simp [State.show,Ne.symm here]) fun u _ => Iff.rfl
        | none =>
            rw [setImage_uncached cached]
            refine settled_same (by simp [Ne.symm here]) fun u _ => ?_
            simp [State.Waits,IOBlock.retrieval,Ne.symm here]

theorem step_complete [DecidableEq K] (good : event.Good) (complete : s.Complete) (taken : step name s event = some t) :
    t.Complete := by
  cases event with
  | setImage v resource =>
      cases taken
      cases resource with
      | none => exact complete
      | some url =>
          cases cached : s.memoryCache url with
          | some image => rw [setImage_cached cached]; exact complete
          | none => rw [setImage_uncached cached]; exact complete
  | io =>
      cases queue : s.ioQueue with
      | nil => simp [step,queue] at taken
      | cons block rest =>
          simp only [step,queue,Option.some.injEq] at taken
          subst taken
          cases block with
          | load v url => cases found : s.disk (name url) <;> simpa [IOBlock.run,found,State.Complete] using complete
          | write url image => exact complete
  | main =>
      cases queue : s.mainQueue with
      | nil => simp [step,queue] at taken
      | cons block rest =>
          simp only [step,queue,Option.some.injEq] at taken
          subst taken
          have left : ∀ v url, MainBlock.downloaded v url none ∉ rest :=
            fun v url member => complete v url (queue ▸ List.mem_cons_of_mem _ member)
          cases block with
          | loaded v url image | downloaded v url image =>
              cases image <;> simpa [MainBlock.run,downloadImage,store,State.Complete] using left
  | processImage url image =>
      obtain ⟨_,done⟩ := Option.ite_none_left_eq_some.mp taken
      cases done
      intro v u member
      rcases List.mem_append.mp member with old | new
      · exact complete v u old
      · obtain ⟨y,_,same⟩ := List.mem_map.mp new
        cases same
        exact good rfl
  | _ =>
      cases taken
      exact complete

theorem step_settled [DecidableEq K] (sourced : Sourced name (Exact content) s) (complete : s.Complete)
    (taken : step name s event = some t) (x : V) :
    settled content t x = (written content x s event).getD (settled content s x) := by
  cases event with
  | setImage v resource =>
      cases taken
      exact settled_setImage sourced v resource x
  | assign v image =>
      cases taken
      by_cases here : v = x
      · subst here
        simp [settled,written,State.show,State.Waits]
      · rw [written,if_neg here,Option.getD_none]
        exact settled_same (by simp [State.show,Ne.symm here]) fun u _ => Iff.rfl
  | io =>
      cases queue : s.ioQueue with
      | nil => simp [step,queue] at taken
      | cons block rest =>
          simp only [step,queue,Option.some.injEq] at taken
          exact taken ▸ settled_io queue x
  | main =>
      cases queue : s.mainQueue with
      | nil => simp [step,queue] at taken
      | cons block rest =>
          simp only [step,queue,Option.some.injEq] at taken
          exact taken ▸ settled_main sourced complete queue x
  | processImage url image =>
      obtain ⟨_,done⟩ := Option.ite_none_left_eq_some.mp taken
      cases done
      exact settled_same rfl fun u _ => process_waits image x u
  | purge url | expire url =>
      cases taken
      exact settled_same rfl fun u _ => Iff.rfl

theorem run_sourced [DecidableEq K] {events : List (Event V U K I)} (shared : Shared name brings)
    (genuine : ∀ e ∈ events, Genuine brings e) (sourced : Sourced name brings s) (ran : run name s events = some t) :
    Sourced name brings t := by
  refine Runs.run_induction_within (I := fun _ s => Sourced name brings s) sourced ?_ ran
  intro past s e rest t split _ sourced taken
  exact step_sourced shared sourced (genuine e (by simp [split])) taken

theorem run_complete [DecidableEq K] {events : List (Event V U K I)} (good : ∀ e ∈ events, e.Good)
    (complete : s.Complete) (ran : run name s events = some t) : t.Complete := by
  refine Runs.run_induction_within (I := fun _ s => s.Complete) complete ?_ ran
  intro past s e rest t split _ complete taken
  exact step_complete (good e (by simp [split])) complete taken

theorem settled_idle (content : U → I) (idle : s.Idle x) : settled content s x = (s.view x).image := by
  unfold settled
  cases asked : (s.view x).webURL with
  | none => rfl
  | some u => exact if_neg (idle u asked)

theorem run_settled [DecidableEq K] {origin final : State V U K I} {events : List (Event V U K I)}
    (shared : Shared name (Exact content)) (sourced : Sourced name (Exact content) origin) (complete : origin.Complete)
    (genuine : ∀ e ∈ events, Genuine (Exact content) e) (good : ∀ e ∈ events, e.Good)
    (ran : run name origin events = some final) (x : V) (image : Option I) :
    settled content final x = image ↔
      Runs.Since (step name) origin events (fun s e => written content x s e = some image)
        (fun s e => written content x s e ≠ none) ∨
      settled content origin x = image ∧
        ¬ Runs.Occurs (step name) origin events fun s e => written content x s e ≠ none := by
  refine Runs.run_written (fun s => settled content s x) ?_ ran image
  intro past s e others t split reached taken
  have early : ∀ e ∈ past, e ∈ events := fun e member => by simp [split,member]
  have before := run_sourced shared (fun e member => genuine e (early e member)) sourced reached
  exact step_settled before (run_complete (fun e member => good e (early e member)) complete reached) taken x

theorem display_exact [DecidableEq K] {origin final : State V U K I} {events : List (Event V U K I)}
    (shared : Shared name (Exact content)) (sourced : Sourced name (Exact content) origin) (complete : origin.Complete)
    (genuine : ∀ e ∈ events, Genuine (Exact content) e) (good : ∀ e ∈ events, e.Good)
    (ran : run name origin events = some final) (x : V) (idle : final.Idle x) (image : Option I) :
    (final.view x).image = image ↔
      Runs.Since (step name) origin events (fun s e => written content x s e = some image)
        (fun s e => written content x s e ≠ none) ∨
      settled content origin x = image ∧
        ¬ Runs.Occurs (step name) origin events fun s e => written content x s e ≠ none := by
  rw [← settled_idle content idle]
  exact run_settled shared sourced complete genuine good ran x image

omit [DecidableEq V] [DecidableEq U] in
theorem empty_sourced : Sourced name brings (State.empty : State V U K I) :=
  ⟨by simp [State.empty],by simp [State.empty],by simp [State.empty],by simp [State.empty],by simp [State.empty]⟩

omit [DecidableEq V] [DecidableEq U] in
theorem empty_complete : (State.empty : State V U K I).Complete := by simp [State.Complete,State.empty]

-- Two views ask for one URL; the image assigned to the first while it waits is
-- overtaken by the download.
theorem display_exact_overtaken :
    let content : Bool → Nat := fun url => if url then 1 else 0
    let events : List (Event Bool Bool Bool Nat) := [.setImage true (some true),.io,.main,.setImage false (some true),
      .assign true (some 7),.io,.main,.processImage true (some 1),.main,.main,.io,.io]
    ∃ final, run id .empty events = some final ∧ (final.view true).image = some 1 ∧
      ((final.view true).image = some 1 ↔
        Runs.Since (step id) .empty events (fun s e => written content true s e = some (some 1))
          (fun s e => written content true s e ≠ none) ∨
        settled content (.empty : State Bool Bool Bool Nat) true = some 1 ∧
          ¬ Runs.Occurs (step id) .empty events fun s e => written content true s e ≠ none) := by
  intro content events
  obtain ⟨final,ran,shown,idle⟩ : ∃ final, run id .empty events = some final ∧ (final.view true).image = some 1 ∧
      final.Idle true := Runs.run_reaches (by decide)
  have genuine : ∀ e ∈ events, Genuine (Exact content) e := by simp [events,Genuine,content]
  have good : ∀ e ∈ events, e.Good := by simp [events,Event.Good]
  exact ⟨final,ran,shown,display_exact shared_id empty_sourced empty_complete genuine good ran true idle (some 1)⟩

def State.Keeps (brings : U → I → Prop) (s t : State V U K I) (x : V) : Prop :=
  t.view x = s.view x ∨ ∃ url image, (s.view x).webURL = some url ∧ s.Waits x url ∧ brings url image ∧
    t.view x = {s.view x with image := some image}

theorem completion_keeps {image : Option I} (view : s.view = before.view) (waited : before.Waits v url)
    (brought : ∀ i, image = some i → brings url i) (x : V) :
    before.Keeps brings (completionHandler s v url image) x := by
  unfold completionHandler
  split
  · rename_i asked
    cases image with
    | none => exact .inl (by rw [view])
    | some image =>
        by_cases here : x = v
        · subst here
          exact .inr ⟨url,image,view ▸ asked,waited,brought image rfl,by simp [State.show,view]⟩
        · exact .inl (by simp [State.show,here,view])
  · exact .inl (by rw [view])

theorem main_keeps {block : MainBlock V U I} {rest : List (MainBlock V U I)} (sourced : Sourced name brings s)
    (queue : s.mainQueue = block :: rest) (x : V) : s.Keeps brings (block.run {s with mainQueue := rest}) x := by
  have here : block ∈ s.mainQueue := queue ▸ List.mem_cons_self
  have waited : s.Waits block.retrieval.1 block.retrieval.2 := .inr (.inl (List.mem_map.mpr ⟨_,here,rfl⟩))
  cases block with
  | loaded v url image =>
      cases image with
      | none => exact .inl rfl
      | some image =>
          have genuine := sourced.loaded v url image here
          exact completion_keeps (by rfl) waited (by rintro _ ⟨⟩; exact genuine) x
  | downloaded v url image =>
      cases image with
      | none => exact completion_keeps (by rfl) waited (by simp) x
      | some image =>
          have genuine := sourced.downloaded v url image here
          exact completion_keeps (by rfl) waited (by rintro _ ⟨⟩; exact genuine) x

theorem step_view [DecidableEq K] (sourced : Sourced name brings s) (taken : step name s event = some t) (x : V) :
    (∃ resource, event = .setImage x resource ∧ (t.view x).webURL = resource ∧
        ∀ image, (t.view x).image = some image → ∃ url, resource = some url ∧ brings url image) ∨
      (∃ image, event = .assign x image ∧ t.view x = {s.view x with image}) ∨
        (∀ resource, event ≠ .setImage x resource) ∧ s.Keeps brings t x := by
  cases event with
  | setImage v resource =>
      cases taken
      by_cases here : v = x
      · subst here
        refine .inl ⟨resource,rfl,?_⟩
        cases resource with
        | none => simp [setImage,State.show]
        | some url =>
            cases cached : s.memoryCache url with
            | some image =>
                rw [setImage_cached cached]
                simpa [State.show] using sourced.memory url image cached
            | none =>
                rw [setImage_uncached cached]
                simp
      · refine .inr (.inr ⟨by simp [here],.inl ?_⟩)
        cases resource with
        | none => simp [setImage,State.show,Ne.symm here]
        | some url =>
            cases cached : s.memoryCache url with
            | some image => simp [setImage_cached cached,State.show,Ne.symm here]
            | none => simp [setImage_uncached cached,Ne.symm here]
  | assign v image =>
      cases taken
      by_cases here : v = x
      · subst here
        exact .inr (.inl ⟨image,rfl,by simp [State.show]⟩)
      · exact .inr (.inr ⟨by simp,.inl (by simp [State.show,Ne.symm here])⟩)
  | io =>
      cases queue : s.ioQueue with
      | nil => simp [step,queue] at taken
      | cons block rest =>
          simp only [step,queue,Option.some.injEq] at taken
          subst taken
          refine .inr (.inr ⟨by simp,.inl ?_⟩)
          cases block with
          | load v url => cases found : s.disk (name url) <;> simp [IOBlock.run,found]
          | write url image => rfl
  | main =>
      cases queue : s.mainQueue with
      | nil => simp [step,queue] at taken
      | cons block rest =>
          simp only [step,queue,Option.some.injEq] at taken
          exact .inr (.inr ⟨by simp,taken ▸ main_keeps sourced queue x⟩)
  | processImage url image =>
      obtain ⟨_,done⟩ := Option.ite_none_left_eq_some.mp taken
      cases done
      exact .inr (.inr ⟨by simp,.inl rfl⟩)
  | purge url | expire url =>
      cases taken
      exact .inr (.inr ⟨by simp,.inl rfl⟩)

theorem step_waits [DecidableEq K] {u : U} (taken : step name s event = some t) (waits : t.Waits x u) :
    s.Waits x u ∨ event = .setImage x (some u) := by
  cases event with
  | setImage v resource =>
      cases taken
      cases resource with
      | none => exact .inl waits
      | some url =>
          cases cached : s.memoryCache url with
          | some image =>
              rw [setImage_cached cached] at waits
              exact .inl waits
          | none =>
              rw [setImage_uncached cached] at waits
              simp only [State.Waits,List.filterMap_append,List.filterMap_cons,IOBlock.retrieval,List.filterMap_nil,
                List.mem_append,List.mem_singleton,Prod.mk.injEq] at waits ⊢
              grind
  | io =>
      cases queue : s.ioQueue with
      | nil => simp [step,queue] at taken
      | cons block rest =>
          simp only [step,queue,Option.some.injEq] at taken
          exact .inl ((io_waits queue x u).mp (taken ▸ waits))
  | main =>
      cases queue : s.mainQueue with
      | nil => simp [step,queue] at taken
      | cons block rest =>
          simp only [step,queue,Option.some.injEq] at taken
          subst taken
          have popped := popped_waits queue x u
          cases block with
          | loaded v url image =>
              cases image with
              | none => exact .inl ((loaded_waits queue x u).mp waits)
              | some image => exact .inl (popped.mpr (.inr ((completion_waits _ x u).mp waits)))
          | downloaded v url image =>
              cases image with
              | none => exact .inl (popped.mpr (.inr ((completion_waits _ x u).mp waits)))
              | some image =>
                  exact .inl (popped.mpr (.inr ((store_waits image x u).mp ((completion_waits _ x u).mp waits))))
  | processImage url image =>
      obtain ⟨_,done⟩ := Option.ite_none_left_eq_some.mp taken
      cases done
      exact .inl ((process_waits image x u).mp waits)
  | assign v image =>
      cases taken
      exact .inl waits
  | purge url | expire url =>
      cases taken
      exact .inl waits

theorem run_safe [DecidableEq K] {final : State V U K I} {events : List (Event V U K I)} (shared : Shared name brings)
    (genuine : ∀ e ∈ events, Genuine brings e) (ran : run name .empty events = some final) (x : V) (image : I)
    (shown : (final.view x).image = some image) :
    (∃ url, (final.view x).webURL = some url ∧ brings url image) ∨
      Runs.Since (step name) .empty events (fun _ e => e = .assign x (some image))
        fun _ e => ∃ resource, e = .setImage x resource := by
  refine Runs.run_induction_within (I := fun past (s : State V U K I) => ∀ image, (s.view x).image = some image →
    (∃ url, (s.view x).webURL = some url ∧ brings url image) ∨
      Runs.Since (step name) .empty past (fun _ e => e = .assign x (some image))
        fun _ e => ∃ resource, e = .setImage x resource) (fun image none => by cases none) ?_ ran image shown
  intro past s e rest t split reached ih taken image shown
  have early : ∀ e ∈ past, Genuine brings e := fun e member => genuine e (by simp [split,member])
  rcases step_view (run_sourced shared early empty_sourced reached) taken x with
    ⟨resource,rfl,asked,brought⟩ | ⟨other,rfl,same⟩ | ⟨quiet,same | ⟨url,other,asked,_,genuine,same⟩⟩
  · obtain ⟨url,rfl,genuine⟩ := brought image shown
    exact .inl ⟨url,asked,genuine⟩
  · rw [same] at shown
    exact .inr ((Runs.since_snoc reached taken).mpr (.inl (congrArg (Event.assign x) shown)))
  · rw [same] at shown ⊢
    refine (ih image shown).imp_right fun since => (Runs.since_snoc reached taken).mpr (.inr ⟨since,?_⟩)
    exact fun set => set.elim quiet
  · rw [same] at shown ⊢
    exact .inl ⟨url,asked,Option.some.inj shown ▸ genuine⟩

theorem display_safe {key name : U → String} (apart : Function.Injective key)
    (named : ∀ url, cacheFileName (key url) = some (name url)) {final : State V U String I}
    {events : List (Event V U String I)} (genuine : ∀ e ∈ events, Genuine (Exact content) e)
    (ran : run name .empty events = some final) (x : V) (image : I) (shown : (final.view x).image = some image) :
    (∃ url other, (final.view x).webURL = some url ∧ image = content other ∧
      (url = other ∨ Chaining.Collides compress (compressions (utf8 (key url))) (compressions (utf8 (key other))))) ∨
        Runs.Since (step name) .empty events (fun _ e => e = .assign x (some image))
          fun _ e => ∃ resource, e = .setImage x resource := by
  have shared : Shared name fun url image => ∃ other, name url = name other ∧ image = content other := by
    intro url other image same brought
    obtain ⟨source,named,isContent⟩ := brought
    exact ⟨source,same.symm.trans named,isContent⟩
  have own : ∀ e ∈ events, Genuine (fun url image => ∃ other, name url = name other ∧ image = content other) e := by
    intro e member
    have brought := genuine e member
    cases e with
    | processImage url image => exact fun i same => ⟨url,rfl,brought i same⟩
    | _ => trivial
  refine (run_safe shared own ran x image shown).imp_left fun both => ?_
  obtain ⟨url,asked,other,same,isContent⟩ := both
  have first := named url
  have second := named other
  rw [same] at first
  exact ⟨url,other,asked,isContent,(cacheFileName_collides first second).imp_left fun keys => apart keys⟩

-- A view is given another URL while the first is downloaded, and the second
-- download fails.
theorem display_safe_reused :
    let key : Bool → String := fun url => if url then "https://a" else "https://b"
    let name : Bool → String := fun url =>
      if url then "870feb6021d933c5efb43e815312199b" else "3f07eada872c4108ecb12a1f7999ddc8"
    let content : Bool → Nat := fun url => if url then 1 else 0
    let events : List (Event Bool Bool String Nat) := [.assign true (some 7),.setImage true (some true),.io,.main,
      .processImage true (some 1),.main,.setImage true (some false),.setImage false (some true),.io,.io,.main,
      .processImage false none,.main]
    ∃ final, run name .empty events = some final ∧ (final.view true).image = none ∧
      ((∃ url other, (final.view false).webURL = some url ∧ 1 = content other ∧
        (url = other ∨ Chaining.Collides compress (compressions (utf8 (key url))) (compressions (utf8 (key other))))) ∨
          Runs.Since (step name) .empty events (fun _ e => e = .assign false (some 1))
            fun _ e => ∃ resource, e = .setImage false resource) := by
  intro key name content events
  obtain ⟨final,ran,blank,shown⟩ : ∃ final, run name .empty events = some final ∧ (final.view true).image = none ∧
      (final.view false).image = some 1 := Runs.run_reaches (by decide)
  have apart : Function.Injective key := show ∀ url other, key url = key other → url = other by decide
  have named : ∀ url, cacheFileName (key url) = some (name url) := by decide +kernel
  have genuine : ∀ e ∈ events, Genuine (Exact content) e := by simp [events,Genuine,content]
  exact ⟨final,ran,blank,display_safe apart named genuine ran false 1 shown⟩

end

end Kingfisher
