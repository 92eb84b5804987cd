import Journey.History
import Journey.Records
import Journey.Simulation

namespace Journey

open Graphemes

variable {D : Type} [DecidableEq D] {platform : Platform} {p next : Program D} {d x : D} {input : Input}

def Program.Saves (platform : Platform) (uid : String) (post : Post) (p : Program D) (event : D × Input) : Prop :=
  ∃ screen draft, event.2 = .saveNewPost ∧ p.screen event.1 = some screen ∧ screen.view = .newPost ∧
    screen.drafts.getLast? = some draft ∧ draft.form.text ≠ "" ∧ (p.world.device event.1).uid = some uid ∧
      post = draft.form.post (platform.auto.key p.world.server.drawn)

theorem request_unwritten (act : Act) (dev : Device) : (act.request dev).bind Request.write = none := by
  cases act with
  | viewDidAppear =>
      cases signed : dev.currentUser with
      | none => rw [Act.request,appearance_signedOut signed]; rfl
      | some user =>
          cases named : user.displayName with
          | none => rw [Act.request,appearance_unnamed signed named]; rfl
          | some name => rw [Act.request,appearance_named signed named]; rfl
  | _ => rfl

theorem steps_saved {uid : String} {post : Post} (rule : Steps platform p d input next)
    (saved : Write.saved uid post ∈ next.world.server.log) :
    Write.saved uid post ∈ p.world.server.log ∨ Program.Saves platform uid post p (d,input) := by
  cases rule with
  | launch =>
      rw [Program.launch,Program.commit,commit_server] at saved
      exact .inl saved
  | @act _ screen shown act a =>
      rw [Program.commit,commit_server,served_write,request_unwritten act] at saved
      exact .inl (by simpa using saved)
  | @react _ screen shown action reaction here _ starts reacts =>
      rw [Program.show,commit_server,served_write,List.mem_append,Option.mem_toList,reacts.writes] at saved
      refine saved.imp_right fun written => ?_
      obtain ⟨form,same,filled,_,signed,isPost⟩ := written
      dsimp only at same
      subst same
      cases starts with
      | @saveNewPost draft view last => exact ⟨screen,draft,rfl,here,view,last,filled,signed,isPost⟩
      | action offered => cases shown : screen.view <;> simp [View.offers,shown] at offered
  | edit => exact .inl saved
  | editTrap => exact .inl saved

def Draft.Ran (platform : Platform) (draft : Draft) : Prop :=
  ∃ darkMode date enabled events,
    drafts platform.swift (.opened platform.placeholder darkMode date enabled) events = some draft

def Program.Drafts (platform : Platform) (p : Program D) : Prop :=
  ∀ x screen, p.screen x = some screen → ∀ draft ∈ screen.drafts, draft.Ran platform

omit [DecidableEq D] in
theorem asks_drafts {screen shown : Screen} {act : Act} (asks : input.Asks platform screen shown act)
    (ran : ∀ draft ∈ screen.drafts, draft.Ran platform) : ∀ draft ∈ shown.drafts, draft.Ran platform := by
  cases asks with
  | act => exact ran
  | darkModeSwitcher => exact ran
  | @openNewPost date enabled =>
      intro draft member
      rcases List.mem_append.mp member with old | new
      · exact ran draft old
      · rw [List.mem_singleton.mp new]
        exact ⟨screen.darkMode,date,enabled,[],rfl⟩

theorem starts_drafts {screen shown : Screen} {action : Action} (starts : input.Starts screen shown action) :
    shown.drafts = screen.drafts := by
  cases starts with
  | saveNewPost =>
      unfold Screen.saved
      split <;> rfl
  | action => rfl

theorem edit_ran {draft after : Draft} {event : DraftEvent} (ran : draft.Ran platform)
    (reacts : draft.react platform.swift event = some (some after)) : after.Ran platform := by
  obtain ⟨darkMode,date,enabled,events,ran⟩ := ran
  exact ⟨darkMode,date,enabled,events ++ [event],Runs.run_snoc.mpr ⟨draft,ran,draft_iff.mpr reacts⟩⟩

theorem update_drafts {screen : Screen} (drafted : p.Drafts platform)
    (own : ∀ draft ∈ screen.drafts, draft.Ran platform) (shown : Screen)
    (here : Function.update p.screen d (some screen) x = some shown) : ∀ draft ∈ shown.drafts, draft.Ran platform := by
  by_cases same : x = d
  · subst same
    rw [Function.update_self,Option.some.injEq] at here
    exact here ▸ own
  · rw [Function.update_of_ne same] at here
    exact drafted x shown here

theorem steps_drafts (rule : Steps platform p d input next) (drafted : p.Drafts platform) : next.Drafts platform := by
  cases rule with
  | launch => exact fun x => update_drafts drafted fun draft member => by cases member
  | act here _ asks _ =>
      have own := asks_drafts asks (drafted d _ here)
      exact fun x => update_drafts drafted own
  | react here _ starts _ => exact fun x => update_drafts drafted (starts_drafts starts ▸ drafted d _ here)
  | edit here _ found reacts =>
      refine fun x => update_drafts drafted fun draft member => ?_
      rcases List.mem_or_eq_of_mem_set member with old | rfl
      · exact drafted d _ here draft old
      · exact edit_ran (drafted d _ here _ (List.mem_of_getElem? found)) reacts
  | editTrap => exact drafted

theorem run_drafts {inputs : List (D × Input)} (ran : programRun platform .start inputs = some p) :
    p.Drafts platform :=
  Runs.run_invariant (I := Program.Drafts platform) (fun _ _ here => by cases here)
    (fun _ _ _ drafted taken => steps_drafts (program_steps taken) drafted) ran

-- What the post says was made on the screen of a new post, by hand or by the
-- geocoder.
def Typed (platform : Platform) (post : Post) : Prop :=
  ∃ darkMode events composer,
    typing platform.swift (.opened darkMode) (events.filterMap DraftEvent.edit?) = some composer ∧
      composer.text ≠ [] ∧ post.text = String.ofList composer.text ∧ post.location = place events ∧
        post.image = some (picture platform.placeholder events)

def Drafted (platform : Platform) (inputs : List (D × Input)) (uid : String) (post : Post) : Prop :=
  Runs.Occurs (Program.step platform) .start inputs (Program.Saves platform uid post) ∧ Typed platform post

theorem saves_typed {inputs : List (D × Input)} {event : D × Input} {uid : String} {post : Post}
    (ran : programRun platform .start inputs = some p) (saves : p.Saves platform uid post event) :
    Typed platform post := by
  obtain ⟨screen,draft,_,here,_,last,filled,_,rfl⟩ := saves
  obtain ⟨darkMode,date,enabled,events,drew⟩ := run_drafts ran event.1 screen here draft (List.mem_of_getLast? last)
  obtain ⟨composer,typed,form⟩ := draft_form drew
  rw [form] at filled ⊢
  exact ⟨darkMode,events,composer,typed,fun blank => filled (String.ofList_eq_empty_iff.mpr blank),rfl,rfl,rfl⟩

theorem saved_drafted {inputs : List (D × Input)} {uid : String} {post : Post}
    (ran : programRun platform .start inputs = some p) (saved : Write.saved uid post ∈ p.world.server.log) :
    Drafted platform inputs uid post := by
  have origin := Runs.run_origin (fun (p : Program D) post => Write.saved uid post ∈ p.world.server.log)
    (Program.Saves platform uid) (fun _ _ _ taken => steps_saved (program_steps taken)) ran saved
  have occurs := origin.resolve_left (by simp [Program.start,World.start,Server.empty])
  refine ⟨occurs,?_⟩
  obtain ⟨past,event,rest,before,_,reached,saves⟩ := occurs
  exact saves_typed reached saves

theorem posts_drafted {inputs : List (D × Input)} (ran : programRun platform .start inputs = some p) :
    (∀ uid, ∀ row ∈ (p.world.server.posts uid).rows, ∃ post, post.id = some row.1 ∧ record post = row.2 ∧
      Drafted platform inputs uid post) ∧
    ∀ d, (p.world.device d).running = true → ∀ listed ∈ (p.world.device d).posts, ∃ uid post,
      post.described = listed.described ∧ Drafted platform inputs uid post := by
  constructor
  · intro uid row member
    obtain ⟨post,kept,named,same⟩ := (run_sound ran).mem_rows.mp member
    exact ⟨post,named,congrArg Prod.snd same,saved_drafted ran (journal_saved kept)⟩
  · intro d running listed member
    obtain ⟨uid,post,saved,same⟩ := (run_sane ran running).held.posts listed member
    exact ⟨uid,post,same,saved_drafted ran saved⟩

theorem posts_drafted_twoPhones : ∃ p, programRun phone .start twoPhones = some p ∧
    (p.world.device true).running = true ∧ (p.world.server.posts "u").rows.length = 1 ∧
      (p.world.device true).posts.length = 1 ∧
      (∀ uid, ∀ row ∈ (p.world.server.posts uid).rows, ∃ post, post.id = some row.1 ∧ record post = row.2 ∧
        Drafted phone twoPhones uid post) ∧
      ∀ d, (p.world.device d).running = true → ∀ listed ∈ (p.world.device d).posts, ∃ uid post,
        post.described = listed.described ∧ Drafted phone twoPhones uid post := by
  obtain ⟨p,ran,running,kept,listed⟩ : ∃ p, programRun phone .start twoPhones = some p ∧
      (p.world.device true).running = true ∧ (p.world.server.posts "u").rows.length = 1 ∧
        (p.world.device true).posts.length = 1 := Runs.run_reaches (by decide)
  exact ⟨p,ran,running,kept,listed,posts_drafted ran⟩

end Journey
