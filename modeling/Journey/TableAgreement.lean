import Journey.Coherence

namespace Journey

variable {D : Type} [DecidableEq D] {auto : AutoId} {w next : World D}

def Device.Agrees (d : Device) : Prop := d.table.map Post.id = d.ids

-- The two closures that change the list without a reload: an upload that appends
-- its post, and a download URL that puts another post where it was asked for.
def Device.Reloads (d : Device) : Action → Prop
  | .uploadDone index true => ∀ upload post, d.uploads[index]? = some upload → upload.closure ≠ .post post
  | .urlDone index true => ∀ request post, d.urls[index]? = some request → d.posts[request.item]? = some post →
      post.id = request.post.id
  | _ => True

theorem Device.Agrees.lengths {d : Device} (agrees : d.Agrees) : d.table.length = d.posts.length := by
  simpa [Device.ids] using congrArg List.length agrees

theorem Device.Agrees.row {d : Device} (agrees : d.Agrees) (row : Nat) :
    d.table[row]?.map Post.id = d.posts[row]?.map Post.id := by
  rw [← List.getElem?_map,agrees,Device.ids,List.getElem?_map]

theorem agrees_refresh {d : Device} (agrees : d.Agrees) : d.refresh.Agrees := by
  rw [Device.Agrees,Device.ids,refresh_table,refresh_posts]
  split
  · exact agrees
  · rfl

theorem agrees_without {d : Device} {row : Nat} (agrees : d.Agrees) : (d.without row).Agrees := by
  refine agrees_refresh ?_
  change (d.table.eraseIdx row).map Post.id = (d.posts.eraseIdx row).map Post.id
  rw [← List.eraseIdx_map,← List.eraseIdx_map,agrees,Device.ids]

theorem Reacts.agrees {server : Server} {dev : Device} {action : Action} {reaction : Reaction}
    (rule : Reacts auto server dev action reaction) (agrees : dev.Agrees) :
    (dev.after reaction.device).Agrees ↔ dev.Reloads action := by
  cases rule with
  | appearOut | deliver => exact iff_of_true rfl trivial
  | appearNamed =>
      have refreshed := agrees_refresh (d := {dev with newUser := false}) agrees
      exact iff_of_true refreshed trivial
  | @uploaded index path data post pending =>
      refine iff_of_false ?_ fun only => only _ post pending rfl
      intro longer
      have counts := longer.lengths
      simp [Device.after,agrees.lengths] at counts
  | @profileUploaded index path data pending =>
      refine iff_of_true agrees ?_
      intro upload post found
      cases pending.symm.trans found
      simp
  | delete => exact iff_of_true (agrees_without agrees) trivial
  | @urlFound index request pending inside =>
      have same := map_set_same Post.id request.post inside
      simp only [Device.after,Device.setCell,Device.Agrees,Device.ids,Device.Reloads]
      rw [agrees,Device.ids,eq_comm,same]
      constructor
      · intro both other post waiting here
        obtain ⟨old,found,equal⟩ := both
        cases pending.symm.trans waiting
        cases found.symm.trans here
        exact equal
      · intro only
        have found : dev.posts[request.item]? = some dev.posts[request.item] := List.getElem?_eq_getElem inside
        exact ⟨_,found,only request _ pending found⟩
  | @urlTrap index request pending past =>
      refine iff_of_true agrees ?_
      intro other post waiting here
      cases pending.symm.trans waiting
      exact absurd (List.getElem?_eq_some_iff.mp here).1 (Nat.not_lt.mpr past)
  | _ => exact iff_of_true agrees trivial

theorem agrees_local {d other : Device} (same : other.local = d.local) : other.Agrees ↔ d.Agrees := by
  have table : other.table = d.table := by simpa only [local_table] using congrArg Device.table same
  have posts : other.posts = d.posts := by simpa only [local_posts] using congrArg Device.posts same
  rw [Device.Agrees,Device.Agrees,Device.ids,Device.ids,table,posts]

theorem step_agrees {event : Event D} (agrees : ∀ d, (w.device d).Agrees) (taken : step auto w event = some next) :
    (∀ d, (next.device d).Agrees) ↔ (w.device event.1).Reloads event.2 := by
  obtain ⟨d,action⟩ := event
  obtain ⟨_,reaction,rule,rfl⟩ := step_iff.mp taken
  have own := (agrees_local (commit_self w d reaction)).trans (rule.agrees (agrees d))
  constructor
  · exact fun all => own.mp (all d)
  · intro reloads x
    by_cases same : x = d
    · subst same; exact own.mpr reloads
    · exact (agrees_local (commit_other w reaction same)).mpr (agrees x)

def RemovesShown (before : World D) (event : Event D) (after : World D) : Prop :=
  ∀ row user, event.2 = .delete row → (before.device event.1).currentUser = some user →
    ∃ shown key, (before.device event.1).table[row]? = some shown ∧ shown.id = some key ∧
      after.server = before.server.apply (.removeValue user.uid key) ∧ (after.device event.1).running = true

theorem step_removesShown {event : Event D} (coherent : Coherent auto w) (agrees : (w.device event.1).Agrees)
    (taken : step auto w event = some next) : RemovesShown w event next := by
  obtain ⟨d,action⟩ := event
  obtain ⟨running,reaction,rule,rfl⟩ := step_iff.mp taken
  intro row user deletion signed
  cases deletion
  have inside : row < (w.device d).table.length := by cases rule <;> assumption
  have below := agrees.lengths ▸ inside
  have shown : (w.device d).table[row]? = some (w.device d).table[row] := List.getElem?_eq_getElem inside
  have found : (w.device d).posts[row]? = some (w.device d).posts[row] := List.getElem?_eq_getElem below
  obtain ⟨uid,belongs⟩ := (coherent.held d).posts _ (List.mem_of_getElem? found)
  obtain ⟨n,_,named⟩ := belongs.drawn coherent.sound
  have ids := agrees.row row
  rw [shown,found,Option.map_some,Option.map_some,Option.some.injEq] at ids
  refine ⟨_,auto.key n,shown,ids.trans named,?_⟩
  cases rule with
  | delete _ owner here key rows =>
      cases owner.symm.trans signed
      cases here.symm.trans found
      cases key.symm.trans named
      exact ⟨commit_server _ _ _,by simpa [Device.after] using running⟩
  | deleteRaise _ _ _ _ rows => exact absurd agrees.lengths rows
  | deleteTrap _ missing => simp [signed,found,named] at missing

def TableAgrees (auto : AutoId) (events : List (Event D)) : Prop :=
  Runs.Always (step auto) World.start events (fun _ w => ∀ d, (w.device d).Agrees) ∧
    Runs.Throughout (step auto) World.start events fun _ => RemovesShown

theorem tableAgreement_exact {events : List (Event D)} (ran : runs auto World.start events = some w) :
    TableAgrees auto events ↔ Runs.Guarded (step auto) World.start events
      fun _ before event => (before.device event.1).Reloads event.2 := by
  have start : ∀ d, ((World.start : World D).device d).Agrees := fun _ => rfl
  have always : Runs.Always (step auto) World.start events (fun _ w => ∀ d, (w.device d).Agrees) ↔
      Runs.Guarded (step auto) World.start events fun _ before event => (before.device event.1).Reloads event.2 :=
    Runs.always_iff_guarded start (fun _ _ _ _ _ agrees taken => step_agrees agrees taken) ran
  refine ⟨fun both => always.mp both.1,fun guarded => ⟨always.mpr guarded,?_⟩⟩
  intro past event rest before after split reached taken
  have agrees := always.mpr guarded past (event :: rest) before split reached
  exact step_removesShown ((Coherent.start auto).runs reached) (agrees event.1) taken

theorem tableAgreement_afterDelete :
    let events : List (Event Unit) := [((),.signIn ⟨"u",some "U"⟩),((),.viewDidAppear),
      ((),.saveNewPost ⟨"one","Montréal","May 1",some ⟨some [255]⟩⟩),((),.deliver 0),((),.deliver 0),((),.delete 0)]
    TableAgrees .letters events ↔ Runs.Guarded (step .letters) World.start events
      fun _ before event => (before.device event.1).Reloads event.2 := by
  intro events
  obtain ⟨w,ran⟩ := Option.isSome_iff_exists.mp
    (show (runs .letters (World.start : World Unit) events).isSome = true by decide)
  exact tableAgreement_exact ran

-- The upload of a post ends after its record has been delivered: the list has
-- the post twice, the table once, and the next deletion raises.
theorem tableAgreement_afterUpload_fails :
    ¬ TableAgrees .letters ([((),.signIn ⟨"u",some "U"⟩),((),.viewDidAppear),
      ((),.saveNewPost ⟨"one","Montréal","May 1",some ⟨some [255]⟩⟩),((),.deliver 0),((),.deliver 0),
      ((),.uploadDone 0 true),((),.delete 0)] : List (Event Unit)) := by
  intro both
  obtain ⟨_,removes⟩ := both
  obtain ⟨before,after,reached,taken,signed,stopped⟩ : ∃ before after, runs .letters (World.start : World Unit)
      [((),.signIn ⟨"u",some "U"⟩),((),.viewDidAppear),((),.saveNewPost ⟨"one","Montréal","May 1",some ⟨some [255]⟩⟩),
        ((),.deliver 0),((),.deliver 0),((),.uploadDone 0 true)] = some before ∧
      runs .letters before [((),.delete 0)] = some after ∧ (before.device ()).currentUser = some ⟨"u",some "U"⟩ ∧
      (after.device ()).running = false :=
    Runs.run_continues (P := fun (before after : World Unit) => (before.device ()).currentUser = some ⟨"u",some "U"⟩ ∧
      (after.device ()).running = false) (by decide)
  obtain ⟨_,_,_,_,_,running⟩ := removes _ _ [] before after rfl reached (Runs.run_one.symm.trans taken) 0 _ rfl signed
  exact absurd (running.symm.trans stopped) (by decide)

end Journey
