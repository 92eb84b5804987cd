import Journey.Coherence

namespace Journey

variable {D : Type} [DecidableEq D] {auto : AutoId} {w next : World D} {d x : D}

def Device.names (d : Device) : Action → Option String
  | .viewDidAppear => match d.currentUser with
      | none => some defaultDisplayName
      | some user => user.displayName
  | _ => none

def countTitle (posts : Nat) : String := toString posts ++ " Posts"

def Device.counts (d : Device) : Action → Option String
  | .viewDidAppear => if d.posts = [] ∧ d.currentUser.bind User.displayName ≠ none then some emptyLabel else none
  | .deliver index => d.observers[index]?.bind fun o => o.queue.head?.bind fun snapshot =>
      if snapshot.rows = [] then none else some (countTitle snapshot.rows.length)
  | .delete _ => if d.currentUser ≠ none ∧ d.posts.length = 1 ∧ d.table.length = 1 then some emptyLabel else none
  | _ => none

theorem mapM_length {f : α → Option β} {xs : List α} {ys : List β} (reads : xs.mapM f = some ys) :
    ys.length = xs.length := by
  induction xs generalizing ys with
  | nil => cases reads; rfl
  | cons x xs ih =>
      rw [List.mapM_cons] at reads
      obtain ⟨y,_,reads⟩ := Option.bind_eq_some_iff.mp reads
      obtain ⟨rest,others,same⟩ := Option.bind_eq_some_iff.mp reads
      cases same
      rw [List.length_cons,List.length_cons,ih others]

theorem refresh_label (d : Device) :
    d.refresh.postCountLabel = if d.posts = [] then emptyLabel else d.postCountLabel := by
  cases posts : d.posts <;> simp [Device.refresh,Device.reloadData,posts]

@[simp] theorem refresh_name (d : Device) : d.refresh.displayNameLabel = d.displayNameLabel := by
  unfold Device.refresh; split <;> rfl

theorem Reacts.names {server : Server} {dev : Device} {action : Action} {reaction : Reaction}
    (rule : Reacts auto server dev action reaction) :
    (dev.after reaction.device).displayNameLabel = (dev.names action).getD dev.displayNameLabel := by
  cases rule with
  | appearOut nobody => simp [Device.names,nobody,Device.after,Device.cleared]
  | appearUnnamed signed unnamed => simp [Device.names,signed,unnamed,Device.after]
  | appearNamed signed named => simp [Device.names,signed,named,Device.after]
  | delete => simp [Device.names,Device.after,Device.without]
  | _ => rfl

theorem eraseIdx_empty {xs : List α} {i : Nat} (inside : i < xs.length) : xs.eraseIdx i = [] ↔ xs.length = 1 := by
  rw [← List.length_eq_zero_iff,List.length_eraseIdx_of_lt inside]
  omega

theorem Reacts.counts {server : Server} {dev : Device} {action : Action} {reaction : Reaction}
    (rule : Reacts auto server dev action reaction) (sound : server.Sound auto)
    (held : dev.Held server.log) (fed : ∀ o ∈ dev.observers, o.Fed server) :
    (dev.after reaction.device).postCountLabel = (dev.counts action).getD dev.postCountLabel := by
  cases rule with
  | appearOut nobody => simp [Device.counts,nobody,Device.after,Device.cleared]
  | appearUnnamed signed unnamed => simp [Device.counts,signed,unnamed,Device.after]
  | appearNamed signed named =>
      by_cases empty : dev.posts = [] <;> simp [Device.counts,signed,named,Device.after,refresh_label,empty]
  | deliverEmpty waiting empty => simp [Device.counts,waiting,empty,Device.after]
  | deliver waiting nonempty reads =>
      simp [Device.counts,waiting,nonempty,Device.after,Device.shown,countTitle,mapM_length reads]
  | deliverTrap waiting mistyped =>
      obtain ⟨kept,lists⟩ := (fed _ (List.mem_of_getElem? waiting)).lists _ List.mem_cons_self
      rw [lists.reads sound] at mistyped
      cases mistyped
  | @delete row user post key inside signed found named rows =>
      have erased := eraseIdx_empty (List.getElem?_eq_some_iff.mp found).1
      by_cases last : dev.posts.length = 1
      · simp [Device.counts,signed,Device.after,Device.without,refresh_label,erased,rows,last]
      · simp [Device.counts,signed,Device.after,Device.without,refresh_label,erased,last]
  | @deleteRaise row user post key inside signed found named rows =>
      have apart : ¬ (dev.posts.length = 1 ∧ dev.table.length = 1) := fun both => rows (both.2.trans both.1.symm)
      simp [Device.counts,Device.after,apart]
  | @deleteTrap row inside missing =>
      have quiet : dev.counts (.delete row) = none := by
        refine if_neg fun all => ?_
        obtain ⟨signed,single,rows⟩ := all
        obtain ⟨post,only⟩ := List.length_eq_one_iff.mp single
        obtain ⟨uid,belongs⟩ := held.posts post (by simp [only])
        obtain ⟨n,_,named⟩ := belongs.drawn sound
        obtain rfl : row = 0 := by omega
        rcases missing with nobody | lost
        · exact signed nobody
        · simp [only,named] at lost
      rw [quiet]
      rfl
  | _ => rfl

def Wrote (x : D) (write : Device → Action → Option String) (w : World D) (event : Event D) : Option String :=
  if event.1 = x then write (w.device x) event.2 else none

def LastWritten (auto : AutoId) (x : D) (write : Device → Action → Option String) (events : List (Event D))
    (launched text : String) : Prop :=
  Runs.Since (step auto) World.start events (fun w event => Wrote x write w event = some text)
      (fun w event => Wrote x write w event ≠ none) ∨
    launched = text ∧ ¬ Runs.Occurs (step auto) World.start events fun w event => Wrote x write w event ≠ none

theorem step_wrote (label : Device → String) {write : Device → Action → Option String} {event : Event D}
    (blind : ∀ d : Device, label d.local = label d) (taken : step auto w event = some next)
    (own : ∀ reaction, Reacts auto w.server (w.device event.1) event.2 reaction →
      label ((w.device event.1).after reaction.device) =
        (write (w.device event.1) event.2).getD (label (w.device event.1))) :
    label (next.device x) = (Wrote x write w event).getD (label (w.device x)) := by
  obtain ⟨d,action⟩ := event
  obtain ⟨_,reaction,rule,rfl⟩ := step_iff.mp taken
  by_cases same : x = d
  · subst same
    rw [← blind,commit_self,blind,own reaction rule,Wrote,if_pos rfl]
  · rw [← blind,commit_other w reaction same,blind,Wrote,if_neg (Ne.symm same)]
    rfl

theorem header_exact {events : List (Event D)} {final : World D} (ran : runs auto World.start events = some final)
    (x : D) :
    (∀ name, (final.device x).displayNameLabel = name ↔
      LastWritten auto x Device.names events defaultDisplayName name) ∧
    ∀ label, (final.device x).postCountLabel = label ↔ LastWritten auto x Device.counts events "0 Posts" label := by
  constructor
  · intro name
    refine Runs.run_written (fun w : World D => (w.device x).displayNameLabel) ?_ ran name
    intro past w event rest next _ _ taken
    exact step_wrote Device.displayNameLabel (fun _ => rfl) taken fun _ rule => rule.names
  · intro label
    refine Runs.run_written (fun w : World D => (w.device x).postCountLabel) ?_ ran label
    intro past w event rest next _ reached taken
    have coherent := (Coherent.start auto).runs reached
    exact step_wrote Device.postCountLabel (fun _ => rfl) taken fun _ rule =>
      rule.counts coherent.sound (coherent.held event.1) (coherent.fed event.1)

theorem header_exact_renamed :
    let events : List (Event Unit) := [((),.signIn ⟨"u",some "U"⟩),((),.viewDidAppear),
      ((),.saveNewPost ⟨"one","Montréal","May 1",some ⟨some [255]⟩⟩),((),.deliver 0),((),.deliver 0),
      ((),.profileChanged "V")]
    ∃ final, runs .letters World.start events = some final ∧
      ((final.device ()).displayNameLabel = "U" ↔ LastWritten .letters () Device.names events defaultDisplayName "U") ∧
      ((final.device ()).postCountLabel = "1 Posts" ↔
        LastWritten .letters () Device.counts events "0 Posts" "1 Posts") := by
  intro events
  obtain ⟨final,ran⟩ := Option.isSome_iff_exists.mp
    (show (runs .letters (World.start : World Unit) events).isSome = true by decide)
  exact ⟨final,ran,(header_exact ran ()).1 "U",(header_exact ran ()).2 "1 Posts"⟩

theorem countTitle_injective : Function.Injective countTitle := by
  intro m n same
  have texts := congrArg String.toList same
  rw [countTitle,countTitle,String.toList_append,String.toList_append] at texts
  have digits : Nat.toDigits 10 m = Nat.toDigits 10 n := by
    rw [← Nat.toList_repr,← Nat.toList_repr]
    exact List.append_cancel_right texts
  rw [← Nat.ofDigitChars_ten_toDigits (n := m),← Nat.ofDigitChars_ten_toDigits (n := n),digits]

def Device.Counted (d : Device) : Prop := d.posts ≠ [] → d.postCountLabel = countTitle d.posts.length

-- An upload that adds its post to the list, or a deletion that leaves posts in
-- it, does not touch the label.
def Device.KeepsCount (d : Device) : Action → Prop
  | .uploadDone index true => ∀ upload post, d.uploads[index]? = some upload → upload.closure = .post post →
      d.posts = [] ∧ d.postCountLabel = countTitle 1
  | .delete _ => d.currentUser = none ∨ d.table.length ≠ d.posts.length ∨ d.posts.length = 1
  | _ => True

theorem counted_refresh {dev : Device} (same : dev.Counted) : dev.refresh.Counted := by
  intro nonempty
  rw [refresh_posts] at nonempty ⊢
  rw [refresh_label,if_neg nonempty]
  exact same nonempty

theorem countTitle_next (n : Nat) : countTitle n ≠ countTitle (n+1) := by
  intro same
  have lengths := countTitle_injective same
  omega

theorem Reacts.keepsCount {server : Server} {dev : Device} {action : Action} {reaction : Reaction}
    (rule : Reacts auto server dev action reaction) (named : ∀ post ∈ dev.posts, post.id ≠ none)
    (same : dev.Counted) : (dev.after reaction.device).Counted ↔ dev.KeepsCount action := by
  cases rule with
  | appearNamed =>
      have refreshed : ({dev with newUser := false} : Device).refresh.Counted := counted_refresh same
      exact iff_of_true refreshed trivial
  | appearOut => exact iff_of_true (fun nonempty => absurd rfl nonempty) trivial
  | @uploaded index path data post pending =>
      have guard : dev.KeepsCount (.uploadDone index true) ↔
          dev.posts = [] ∧ dev.postCountLabel = countTitle 1 :=
        ⟨fun keeps => keeps _ post pending rfl,fun both _ _ _ _ => both⟩
      rw [guard]
      by_cases empty : dev.posts = []
      · simp [Device.Counted,Device.after,empty]
      · have other : dev.postCountLabel ≠ countTitle (dev.posts.length + 1) := same empty ▸ countTitle_next _
        simp [Device.Counted,Device.after,empty,other]
  | @profileUploaded index path data pending =>
      refine iff_of_true same ?_
      intro upload post found closure
      cases pending.symm.trans found
      cases closure
  | deliver => exact iff_of_true (fun _ => rfl) trivial
  | @delete row user post key inside signed found isKey rows =>
      have within := (List.getElem?_eq_some_iff.mp found).1
      have guard : dev.KeepsCount (.delete row) ↔ dev.posts.length = 1 := by simp [Device.KeepsCount,signed,rows]
      rw [guard,← eraseIdx_empty within]
      refine ⟨fun counted => ?_,fun empty nonempty => absurd ((without_posts dev row).trans empty) nonempty⟩
      by_contra remaining
      have after := counted (show (dev.without row).posts ≠ [] by rwa [without_posts])
      have label : (dev.without row).postCountLabel = dev.postCountLabel := by
        rw [Device.without,refresh_label,if_neg remaining]
      have after : (dev.without row).postCountLabel = countTitle (dev.without row).posts.length := after
      rw [label,same (List.ne_nil_of_length_pos (by omega))] at after
      have lengths := countTitle_injective after
      change dev.posts.length = (dev.without row).posts.length at lengths
      rw [without_posts,List.length_eraseIdx_of_lt within] at lengths
      omega
  | deleteRaise inside signed found isKey rows => exact iff_of_true same (.inr (.inl rows))
  | @deleteTrap row inside missing =>
      refine iff_of_true same ?_
      rcases missing with nobody | lost
      · exact .inl nobody
      · refine .inr (.inl fun rows => ?_)
        have found := List.getElem?_eq_getElem (rows ▸ inside)
        rw [found] at lost
        exact named _ (List.getElem_mem _) lost
  | urlFound pending inside =>
      refine iff_of_true (fun _ => ?_) trivial
      have nonempty : dev.posts ≠ [] := List.ne_nil_of_length_pos (Nat.zero_lt_of_lt inside)
      simpa [Device.after,Device.setCell] using same nonempty
  | uploadFailed => exact iff_of_true same trivial
  | _ => exact iff_of_true same trivial

theorem count_exact {events : List (Event D)} {final : World D} (ran : runs auto World.start events = some final) :
    Runs.Always (step auto) World.start events (fun _ w => ∀ d, (w.device d).Counted) ↔
      Runs.Guarded (step auto) World.start events fun _ w event => (w.device event.1).KeepsCount event.2 := by
  refine Runs.always_iff_guarded (fun _ nonempty => absurd rfl nonempty) ?_ ran
  intro past w event next reached counted taken
  have coherent := (Coherent.start auto).runs reached
  have named : ∀ post ∈ (w.device event.1).posts, post.id ≠ none := by
    intro post member
    obtain ⟨uid,belongs⟩ := (coherent.held event.1).posts post member
    obtain ⟨n,_,isKey⟩ := belongs.drawn coherent.sound
    simp [isKey]
  have blind {d other : Device} (same : other.local = d.local) : other.Counted ↔ d.Counted := by
    have posts : other.posts = d.posts := by simpa only [local_posts] using congrArg Device.posts same
    have label : other.local.postCountLabel = d.local.postCountLabel := by rw [same]
    change other.postCountLabel = d.postCountLabel at label
    rw [Device.Counted,Device.Counted,posts,label]
  obtain ⟨d,action⟩ := event
  obtain ⟨_,reaction,rule,rfl⟩ := step_iff.mp taken
  have own := (blind (commit_self w d reaction)).trans (rule.keepsCount named (counted d))
  refine ⟨fun all => own.mp (all d),fun keeps x => ?_⟩
  by_cases same : x = d
  · exact same ▸ own.mpr keeps
  · exact (blind (commit_other w reaction same)).mpr (counted x)

theorem count_exact_twoPosts :
    let events : List (Event Unit) := [((),.signIn ⟨"u",some "U"⟩),((),.viewDidAppear),
      ((),.saveNewPost ⟨"one","Montréal","May 1",some ⟨some [255]⟩⟩),
      ((),.saveNewPost ⟨"two","Québec","May 2",some ⟨some [255]⟩⟩),((),.deliver 0),((),.deliver 0),((),.deliver 0),
      ((),.delete 1)]
    Runs.Always (step .letters) World.start events (fun _ w => ∀ d, (w.device d).Counted) ↔
      Runs.Guarded (step .letters) World.start events fun _ w event => (w.device event.1).KeepsCount event.2 := by
  intro events
  obtain ⟨final,ran⟩ := Option.isSome_iff_exists.mp
    (show (runs .letters (World.start : World Unit) events).isSome = true by decide)
  exact count_exact ran

end Journey
