import Journey.Kingfisher
import Journey.World

namespace Journey

open Kingfisher (Sourced Exact settled written Genuine)

-- The world, and in each process the image views of its cells: what a device sets
-- in a cell at once is what Kingfisher is asked for. A photo is told by its path, as
-- are its URL and its file.
abbrev PhotoEvent := Kingfisher.Event Nat (List String) (List String) UIImage

abbrev PhotoState := Kingfisher.State Nat (List String) (List String) UIImage

structure Gallery (D : Type) where
  world : World D
  photos : D → PhotoState

inductive Showing (D : Type) where
  | app (event : Event D)
  | kingfisher (d : D) (event : PhotoEvent)

def Photo.event (cell : Nat) : Photo → PhotoEvent
  | .image own => .assign cell (some own)
  | .stored path => .setImage cell (some path)

def Action.draws (d : Device) : Action → Option (Nat × Photo)
  | .cellForRowAt row cell => (d.posts[row]?.bind Post.image).map fun image => (cell,.image image)
  | .urlDone index true => d.urls[index]?.map fun request => (request.cell,.stored request.path)
  | _ => none

def internal : PhotoEvent → Bool
  | .setImage _ _ | .assign _ _ => false
  | _ => true

variable {D : Type} [DecidableEq D]

def Gallery.start : Gallery D := ⟨.start,fun _ => .empty⟩

def Gallery.kingfisher (g : Gallery D) (d : D) (event : PhotoEvent) : Option (Gallery D) :=
  (Kingfisher.step id (g.photos d) event).map fun s => {g with photos := Function.update g.photos d s}

def Gallery.step (auto : AutoId) (g : Gallery D) : Showing D → Option (Gallery D)
  | .app (d,action) => (Journey.step auto g.world (d,action)).bind fun world =>
      match action.draws (g.world.device d) with
      | none => some {g with world}
      | some (cell,photo) => Gallery.kingfisher {g with world} d (photo.event cell)
  | .kingfisher d event => if internal event then g.kingfisher d event else none

def Photo.picture (content : List String → UIImage) : Photo → UIImage
  | .image own => own
  | .stored path => content path

def Device.picture (content : List String → UIImage) (d : Device) (cell : Nat) : Option UIImage :=
  (d.cells cell).postPhoto.map (Photo.picture content)

def Draws (d : D) (cell : Nat) (g : Gallery D) (showing : Showing D) : Prop :=
  ∃ action photo, showing = .app (d,action) ∧ action.draws (g.world.device d) = some (cell,photo)

-- A cell is given an image of its own while a retrieval is under way for the URL
-- that it had; nothing cancels the download.
def Overtaken (content : List String → UIImage) (d : D) (cell : Nat) (g : Gallery D) (showing : Showing D) : Prop :=
  ∃ action image url, showing = .app (d,action) ∧ action.draws (g.world.device d) = some (cell,.image image) ∧
    ((g.photos d).view cell).webURL = some url ∧ (g.photos d).Waits cell url ∧ content url ≠ image

section

variable {auto : AutoId} {content : List String → UIImage} {g next : Gallery D} {d x : D} {cell : Nat}

@[simp] theorem refresh_cells (d : Device) : d.refresh.cells = d.cells := by unfold Device.refresh; split <;> rfl

@[simp] theorem without_cells (d : Device) (row : Nat) : (d.without row).cells = d.cells := refresh_cells _

theorem Reacts.photos {server : Server} {dev : Device} {action : Action} {reaction : Reaction}
    (rule : Reacts auto server dev action reaction) (alive : reaction.device ≠ none) (cell : Nat) :
    ((dev.after reaction.device).cells cell).postPhoto = match action.draws dev with
      | some (drawn,photo) => if drawn = cell then some photo else (dev.cells cell).postPhoto
      | none => (dev.cells cell).postPhoto := by
  cases rule with
  | saveTrap | saveUnencoded | deliverTrap | deleteRaise | deleteTrap | cellTrap | urlTrap | profilePhotoTrap =>
      exact absurd rfl alive
  | appearNamed | delete => simp [Device.after,Action.draws]
  | cellEmpty _ empty => simp [Device.after,Action.draws,empty]
  | @cellImage row drawn post image inside found photo =>
      by_cases here : drawn = cell
      · subst here
        simp [Device.after,Device.setCell,Action.draws,found,photo,describe]
      · simp [Device.after,Device.setCell,Action.draws,found,photo,here,Ne.symm here]
  | @cellRequest row drawn post user id inside found photo signed named =>
      by_cases here : cell = drawn <;> simp [Device.after,Device.setCell,Action.draws,found,photo,here,describe]
  | @urlFound index request pending inside =>
      by_cases here : request.cell = cell
      · subst here
        simp [Device.after,Device.setCell,Action.draws,pending]
      · simp [Device.after,Device.setCell,Action.draws,pending,here,Ne.symm here]
  | _ => rfl

def Gallery.Kept (content : List String → UIImage) (g : Gallery D) : Prop :=
  ∀ x, Sourced id (Exact content) (g.photos x) ∧ (g.photos x).Complete

def Honest (content : List String → UIImage) (showing : Showing D) : Prop :=
  ∀ x event, showing = .kingfisher x event → Genuine (Exact content) event ∧ event.Good

omit [DecidableEq D] in
theorem photo_event (photo : Photo) (cell : Nat) :
    Genuine (Exact content) (photo.event cell) ∧ (photo.event cell).Good := by
  cases photo <;> exact ⟨trivial,trivial⟩

theorem kingfisher_kept {event : PhotoEvent} (kept : g.Kept content)
    (honest : Genuine (Exact content) event ∧ event.Good) (taken : g.kingfisher x event = some next) : next.Kept content := by
  obtain ⟨s,moved,rfl⟩ := Option.map_eq_some_iff.mp taken
  intro y
  by_cases here : y = x
  · subst here
    simp only [Function.update_self]
    exact ⟨Kingfisher.step_sourced Kingfisher.shared_id (kept y).1 honest.1 moved,
      Kingfisher.step_complete honest.2 (kept y).2 moved⟩
  · simpa only [Function.update_of_ne here] using kept y

theorem app_parts {action : Action} (taken : g.step auto (.app (x,action)) = some next) :
    ∃ world, Journey.step auto g.world (x,action) = some world ∧ next.world = world ∧
      match action.draws (g.world.device x) with
      | none => next.photos = g.photos
      | some (cell,photo) => Gallery.kingfisher {g with world} x (photo.event cell) = some next := by
  obtain ⟨world,acted,drawn⟩ := Option.bind_eq_some_iff.mp taken
  refine ⟨world,acted,?_⟩
  cases draws : action.draws (g.world.device x) with
  | none =>
      rw [draws] at drawn
      cases drawn
      exact ⟨rfl,rfl⟩
  | some drawing =>
      rw [draws] at drawn
      obtain ⟨s,moved,rfl⟩ := Option.map_eq_some_iff.mp drawn
      exact ⟨rfl,drawn⟩

theorem gallery_kept {showing : Showing D} (kept : g.Kept content) (honest : Honest content showing)
    (taken : g.step auto showing = some next) : next.Kept content := by
  cases showing with
  | app event =>
      obtain ⟨y,action⟩ := event
      obtain ⟨world,_,_,drawn⟩ := app_parts taken
      cases draws : action.draws (g.world.device y) with
      | none =>
          rw [draws] at drawn
          intro x
          rw [drawn]
          exact kept x
      | some drawing =>
          rw [draws] at drawn
          have still : Gallery.Kept content {g with world} := kept
          exact kingfisher_kept still (photo_event drawing.2 drawing.1) drawn
  | kingfisher y event =>
      obtain ⟨_,moved⟩ := Option.ite_none_right_eq_some.mp taken
      exact kingfisher_kept kept (honest y event rfl) moved

theorem internal_written {event : PhotoEvent} (inside : internal event = true) (s : PhotoState) :
    written content cell s event = none := by
  cases event <;> first | rfl | cases inside

theorem kingfisher_settled {event : PhotoEvent} (kept : g.Kept content) (taken : g.kingfisher x event = some next) :
    settled content (next.photos d) cell = if d = x then
      (written content cell (g.photos d) event).getD (settled content (g.photos d) cell)
        else settled content (g.photos d) cell := by
  obtain ⟨s,moved,rfl⟩ := Option.map_eq_some_iff.mp taken
  by_cases here : d = x
  · subst here
    simp only [Function.update_self,if_true]
    exact Kingfisher.step_settled (kept d).1 (kept d).2 moved cell
  · simp only [Function.update_of_ne here,if_neg here]

theorem acted_picture {world : World D} {action : Action} (acted : Journey.step auto g.world (d,action) = some world)
    (alive : (world.device d).running = true) : (world.device d).picture content cell =
      match action.draws (g.world.device d) with
      | some (drawn,photo) =>
        if drawn = cell then some (photo.picture content) else (g.world.device d).picture content cell
      | none => (g.world.device d).picture content cell := by
  obtain ⟨_,reaction,rule,rfl⟩ := step_iff.mp acted
  have goes : reaction.device ≠ none := by
    intro trapped
    rw [commit_running,trapped] at alive
    cases alive
  have cells := congrArg Device.cells (commit_self g.world d reaction)
  have same : ((g.world.commit d reaction).device d).cells = ((g.world.device d).after reaction.device).cells := cells
  have photo := rule.photos goes cell
  rw [Device.picture,same,photo]
  cases action.draws (g.world.device d) with
  | none => rfl
  | some drawing =>
      simp only
      split <;> rfl

theorem other_picture {world : World D} {action : Action} (acted : Journey.step auto g.world (x,action) = some world)
    (other : d ≠ x) : (world.device d).picture content cell = (g.world.device d).picture content cell := by
  have cells := congrArg Device.cells (step_other acted other)
  have same : (world.device d).cells = (g.world.device d).cells := cells
  rw [Device.picture,Device.picture,same]

theorem step_quiet {showing : Showing D} (kept : g.Kept content) (taken : g.step auto showing = some next)
    (quiet : ¬ Draws d cell g showing) (alive : (next.world.device d).running = true) :
    settled content (next.photos d) cell = settled content (g.photos d) cell ∧
      (next.world.device d).picture content cell = (g.world.device d).picture content cell := by
  cases showing with
  | app event =>
      obtain ⟨y,action⟩ := event
      obtain ⟨world,acted,same,drawn⟩ := app_parts taken
      subst same
      have still : Gallery.Kept content {g with world := next.world} := kept
      by_cases here : d = y
      · subst here
        rw [acted_picture acted alive]
        cases draws : action.draws (g.world.device d) with
        | none =>
            rw [draws] at drawn
            exact ⟨by rw [drawn],rfl⟩
        | some drawing =>
            rw [draws] at drawn
            have elsewhere : drawing.1 ≠ cell := fun same => quiet ⟨action,drawing.2,rfl,by rw [draws,← same]⟩
            refine ⟨?_,if_neg elsewhere⟩
            rw [kingfisher_settled still drawn,if_pos rfl]
            obtain ⟨drawn,photo⟩ := drawing
            cases photo <;> simp [Photo.event,written,elsewhere]
      · refine ⟨?_,other_picture acted here⟩
        cases draws : action.draws (g.world.device y) with
        | none =>
            rw [draws] at drawn
            rw [drawn]
        | some drawing =>
            rw [draws] at drawn
            rw [kingfisher_settled still drawn,if_neg here]
  | kingfisher y event =>
      obtain ⟨inside,moved⟩ := Option.ite_none_right_eq_some.mp taken
      have world : next.world = g.world := by
        obtain ⟨s,_,rfl⟩ := Option.map_eq_some_iff.mp moved
        rfl
      refine ⟨?_,by rw [world]⟩
      rw [kingfisher_settled kept moved,internal_written inside,Option.getD_none,ite_self]

theorem step_draws {showing : Showing D} (kept : g.Kept content) (taken : g.step auto showing = some next)
    (draws : Draws d cell g showing) (alive : (next.world.device d).running = true) :
    settled content (next.photos d) cell = (next.world.device d).picture content cell ↔
      ¬ Overtaken content d cell g showing := by
  obtain ⟨action,photo,rfl,draws⟩ := draws
  obtain ⟨world,acted,same,drawn⟩ := app_parts taken
  subst same
  rw [draws] at drawn
  have still : Gallery.Kept content {g with world := next.world} := kept
  rw [acted_picture acted alive,draws,kingfisher_settled still drawn,if_pos rfl]
  simp only [if_true]
  cases photo with
  | stored path => simp [Photo.event,written,Photo.picture,Overtaken,draws]
  | image image =>
      simp only [Photo.event,written,if_true,Option.getD_some,Photo.picture,Overtaken,Showing.app.injEq,Prod.mk.injEq,
        true_and]
      cases asked : ((g.photos d).view cell).webURL with
      | none => simp
      | some url =>
          by_cases waits : (g.photos d).Waits cell url <;> simp [waits,draws]

theorem gallery_alive {showing : Showing D} (taken : g.step auto showing = some next)
    (alive : (next.world.device d).running = true) : (g.world.device d).running = true := by
  cases showing with
  | app event =>
      obtain ⟨y,action⟩ := event
      obtain ⟨world,acted,same,_⟩ := app_parts taken
      subst same
      by_cases here : d = y
      · subst here
        exact (step_iff.mp acted).1
      · have still := congrArg Device.running (step_other acted here)
        simp only [local_running] at still
        exact still.symm.trans alive
  | kingfisher y event =>
      obtain ⟨_,moved⟩ := Option.ite_none_right_eq_some.mp taken
      obtain ⟨s,_,rfl⟩ := Option.map_eq_some_iff.mp moved
      exact alive

theorem run_kept {showings : List (Showing D)} (honest : ∀ showing ∈ showings, Honest content showing)
    (ran : Runs.run (Gallery.step auto) .start showings = some g) : g.Kept content := by
  refine Runs.run_induction_within (I := fun _ (g : Gallery D) => g.Kept content)
    (fun _ => ⟨Kingfisher.empty_sourced,Kingfisher.empty_complete⟩) ?_ ran
  intro past g showing rest next split _ kept taken
  exact gallery_kept kept (honest showing (by simp [split])) taken

theorem cells_display {showings : List (Showing D)} (honest : ∀ showing ∈ showings, Honest content showing)
    (ran : Runs.run (Gallery.step auto) .start showings = some g) (alive : (g.world.device d).running = true)
    (idle : (g.photos d).Idle cell) : ((g.photos d).view cell).image = (g.world.device d).picture content cell ↔
      ¬ Runs.Since (Gallery.step auto) .start showings (Overtaken content d cell) (Draws d cell) := by
  rw [← Kingfisher.settled_idle content idle]
  refine Runs.run_induction_within (I := fun past (g : Gallery D) => (g.world.device d).running = true →
    (settled content (g.photos d) cell = (g.world.device d).picture content cell ↔
      ¬ Runs.Since (Gallery.step auto) .start past (Overtaken content d cell) (Draws d cell))) ?_ ?_ ran alive
  · exact fun _ => iff_of_true rfl Runs.since_nil
  · intro past g showing others next split reached ih taken alive
    have kept := run_kept (fun e member => honest e (by simp [split,member])) reached
    rw [Runs.since_snoc reached taken]
    by_cases draws : Draws d cell g showing
    · rw [step_draws kept taken draws alive]
      simp [draws]
    · obtain ⟨same,picture⟩ := step_quiet kept taken draws alive
      have calm : ¬ Overtaken content d cell g showing := by
        intro overtaken
        obtain ⟨action,image,_,isApp,drawn,_⟩ := overtaken
        exact draws ⟨action,.image image,isApp,drawn⟩
      rw [same,picture,ih (gallery_alive taken alive)]
      simp [draws,calm]

-- A cell that waits for the photo of one post is given the own image of another.
theorem cells_display_overtaken :
    let content : List String → UIImage := fun _ => ⟨some [9]⟩
    let showings : List (Showing Unit) := [.app ((),.signIn ⟨"u",some "U"⟩),.app ((),.viewDidAppear),
      .app ((),.saveNewPost ⟨"a","","",some ⟨some [1]⟩⟩),.app ((),.deliver 0),.app ((),.deliver 0),
      .app ((),.cellForRowAt 0 0),.app ((),.urlDone 0 true),.kingfisher () .io,.kingfisher () .main,
      .app ((),.uploadDone 0 true),.app ((),.viewDidAppear),.app ((),.cellForRowAt 1 0),
      .kingfisher () (.processImage ["u","posts","a"] (some ⟨some [9]⟩)),.kingfisher () .main]
    Runs.Since (Gallery.step .letters) .start showings (Overtaken content () 0) (Draws () 0) := by
  intro content showings
  obtain ⟨g,ran,alive,idle,differ⟩ : ∃ g, Runs.run (Gallery.step .letters) .start showings = some g ∧
      (g.world.device ()).running = true ∧ (g.photos ()).Idle 0 ∧
        ((g.photos ()).view 0).image ≠ (g.world.device ()).picture content 0 := Runs.run_reaches (by decide)
  have honest : ∀ showing ∈ showings, Honest content showing := by
    intro showing member x event same
    subst same
    simp [showings] at member
    rcases member with rfl | rfl | rfl | rfl <;> exact ⟨by simp [Genuine,content],by simp [Kingfisher.Event.Good]⟩
  exact not_not.mp (mt (cells_display honest ran alive idle).mpr differ)

end

end Journey
