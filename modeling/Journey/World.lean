import Mathlib.Logic.Function.Basic
import Journey.Runs
import Journey.Feed
import Journey.Reactions

namespace Journey

-- Any number of devices over one backend. Each process of the app is a device
-- of its own, so a device starts with nobody signed in and an empty list.
structure World (D : Type) where
  server : Server
  device : D → Device

abbrev Event (D : Type) := D × Action

def World.start : World D := ⟨.empty,fun _ => .launched⟩

def Device.after (d : Device) : Option Device → Device
  | some next => next
  | none => {d with running := false}

variable {D : Type} [DecidableEq D] {auto : AutoId} {w next : World D} {d x : D} {reaction : Reaction}

def World.settle (w : World D) (d : D) (outcome : Option Device) : World D :=
  {w with device := Function.update w.device d ((w.device d).after outcome)}

-- A write sends the new content to every observer of its node, on every device;
-- a new observer is sent the content that it finds.
def World.serve (w : World D) (d : D) (request : Request) : World D :=
  let server := w.server.apply request
  match request with
  | .setValue uid _ _ | .removeValue uid _ => ⟨server,fun x => (w.device x).receive uid (server.posts uid)⟩
  | .putObject _ _ => ⟨server,w.device⟩
  | .observe uid => ⟨server,Function.update w.device d ((w.device d).attach uid (server.posts uid))⟩

def World.commit (w : World D) (d : D) (reaction : Reaction) : World D :=
  match reaction.request with
  | none => w.settle d reaction.device
  | some request => (w.settle d reaction.device).serve d request

def step (auto : AutoId) (w : World D) (event : Event D) : Option (World D) :=
  if (w.device event.1).running then
    (react auto w.server (w.device event.1) event.2).map (w.commit event.1)
  else none

abbrev runs (auto : AutoId) : World D → List (Event D) → Option (World D) := Runs.run (step auto)

theorem step_iff : step auto w (d,action) = some next ↔ (w.device d).running = true ∧
    ∃ reaction, Reacts auto w.server (w.device d) action reaction ∧ next = w.commit d reaction := by
  simp only [step,Option.ite_none_right_eq_some,Option.map_eq_some_iff]
  refine and_congr_right fun _ => exists_congr fun reaction => ?_
  exact ⟨fun ⟨reacted,same⟩ => ⟨react_sound reacted,same.symm⟩,fun ⟨rule,same⟩ => ⟨react_complete rule,same.symm⟩⟩

def Server.served (server : Server) (request : Option Request) : Server := request.elim server server.apply

@[simp] theorem served_none (server : Server) : server.served none = server := rfl
@[simp] theorem served_some (server : Server) (request : Request) :
    server.served (some request) = server.apply request := rfl

@[simp] theorem serve_server (w : World D) (d : D) (request : Request) :
    (w.serve d request).server = w.server.apply request := by cases request <;> rfl

@[simp] theorem commit_server (w : World D) (d : D) (reaction : Reaction) :
    (w.commit d reaction).server = w.server.served reaction.request := by
  unfold World.commit
  cases reaction.request with
  | none => rfl
  | some request => exact serve_server _ _ _

theorem serve_local (w : World D) (d x : D) (request : Request) :
    ((w.serve d request).device x).local = (w.device x).local := by
  cases request with
  | setValue => rfl
  | removeValue => rfl
  | putObject => rfl
  | observe uid =>
      by_cases same : x = d
      · subst same; simp [World.serve]
      · simp [World.serve,Function.update_of_ne same]

theorem commit_self (w : World D) (d : D) (reaction : Reaction) :
    ((w.commit d reaction).device d).local = ((w.device d).after reaction.device).local := by
  unfold World.commit
  split
  · simp [World.settle]
  · simp [serve_local,World.settle]

@[simp] theorem commit_running (w : World D) (d : D) (reaction : Reaction) :
    ((w.commit d reaction).device d).running = ((w.device d).after reaction.device).running := by
  simpa only [local_running] using congrArg Device.running (commit_self w d reaction)

@[simp] theorem commit_currentUser (w : World D) (d : D) (reaction : Reaction) :
    ((w.commit d reaction).device d).currentUser = ((w.device d).after reaction.device).currentUser := by
  simpa only [local_currentUser] using congrArg Device.currentUser (commit_self w d reaction)

@[simp] theorem commit_posts (w : World D) (d : D) (reaction : Reaction) :
    ((w.commit d reaction).device d).posts = ((w.device d).after reaction.device).posts := by
  simpa only [local_posts] using congrArg Device.posts (commit_self w d reaction)

@[simp] theorem commit_table (w : World D) (d : D) (reaction : Reaction) :
    ((w.commit d reaction).device d).table = ((w.device d).after reaction.device).table := by
  simpa only [local_table] using congrArg Device.table (commit_self w d reaction)

@[simp] theorem commit_uploads (w : World D) (d : D) (reaction : Reaction) :
    ((w.commit d reaction).device d).uploads = ((w.device d).after reaction.device).uploads := by
  simpa only [local_uploads] using congrArg Device.uploads (commit_self w d reaction)

@[simp] theorem commit_urls (w : World D) (d : D) (reaction : Reaction) :
    ((w.commit d reaction).device d).urls = ((w.device d).after reaction.device).urls := by
  simpa only [local_urls] using congrArg Device.urls (commit_self w d reaction)

theorem commit_other (w : World D) (reaction : Reaction) (other : x ≠ d) :
    ((w.commit d reaction).device x).local = (w.device x).local := by
  unfold World.commit
  split
  · simp [World.settle,Function.update_of_ne other]
  · simp [serve_local,World.settle,Function.update_of_ne other]

theorem step_other (taken : step auto w (d,action) = some next) (other : x ≠ d) :
    (next.device x).local = (w.device x).local := by
  obtain ⟨_,reaction,_,rfl⟩ := step_iff.mp taken
  exact commit_other w reaction other

def Request.sends (request : Request) (own : Bool) (server : Server) (observers : List Observer) : List Observer :=
  match request with
  | .setValue uid _ _ | .removeValue uid _ =>
    observers.map fun o => if o.uid = uid then {o with queue := o.queue ++ [server.posts uid]} else o
  | .putObject _ _ => observers
  | .observe uid => if own then observers ++ [⟨uid,[server.posts uid]⟩] else observers

theorem serve_observers (w : World D) (d x : D) (request : Request) : ((w.serve d request).device x).observers =
    request.sends (decide (x = d)) (w.server.apply request) (w.device x).observers := by
  cases request with
  | setValue | removeValue | putObject => rfl
  | observe uid =>
      by_cases same : x = d
      · subst same; simp [World.serve,Request.sends,Device.attach]
      · simp [World.serve,Request.sends,same]

theorem settle_observers (w : World D) (d x : D) (outcome : Option Device) :
    ((w.settle d outcome).device x).observers =
      if x = d then ((w.device d).after outcome).observers else (w.device x).observers := by
  by_cases same : x = d
  · subst same; simp [World.settle]
  · simp [World.settle,same]

end Journey
