import Mathlib.Data.List.Induction
import Mathlib.Data.List.Nodup
import Mathlib.Data.List.Range
import Mathlib.Logic.Function.Basic
import Journey.Device

namespace Journey

-- childByAutoId: the key of each save is new and greater than all before it.
structure AutoId where
  key : Nat → String
  increasing : ∀ m n, m < n → key m < key n

def AutoId.letters : AutoId where
  key n := String.ofList (List.replicate (n+1) 'a')
  increasing m n below := by
    rw [String.lt_iff_toList_lt,String.toList_ofList,String.toList_ofList]
    induction m generalizing n with
    | zero =>
        obtain ⟨k,rfl⟩ := Nat.exists_eq_add_of_lt below
        simp [List.replicate_succ]
    | succ m ih =>
        obtain ⟨k,rfl⟩ := Nat.exists_eq_succ_of_ne_zero (Nat.ne_of_gt (Nat.zero_lt_of_lt below))
        rw [List.replicate_succ,List.replicate_succ (n := k+1)]
        exact List.Lex.cons (ih k (Nat.lt_of_succ_lt_succ below))

-- A history variable of the backend; no step of a device or of the backend
-- reads it.
inductive Write where
  | saved (uid : String) (post : Post)
  | removed (uid key : String)
  | stored (path : List String)
  deriving DecidableEq, Repr

structure Server where
  posts : String → Snapshot
  objects : List String → Option (List UInt8)
  drawn : Nat
  log : List Write

def Server.empty : Server := ⟨fun _ => .empty,fun _ => none,0,[]⟩

def Server.apply (server : Server) : Request → Server
  | .setValue uid key post =>
    {server with
      posts := Function.update server.posts uid ((server.posts uid).put key (record post))
      drawn := server.drawn + 1
      log := server.log ++ [.saved uid post]}
  | .removeValue uid key =>
    {server with
      posts := Function.update server.posts uid ((server.posts uid).erase key)
      log := server.log ++ [.removed uid key]}
  | .putObject path data =>
    {server with objects := Function.update server.objects path (some data),log := server.log ++ [.stored path]}
  | .observe _ => server

def Request.write : Request → Option Write
  | .setValue uid _ post => some (.saved uid post)
  | .removeValue uid key => some (.removed uid key)
  | .putObject path _ => some (.stored path)
  | .observe _ => none

def Request.target : Request → Option String
  | .setValue uid _ _ | .removeValue uid _ => some uid
  | .putObject _ _ | .observe _ => none

def Request.node : Request → Option String
  | .setValue uid _ _ | .removeValue uid _ | .observe uid => some uid
  | .putObject _ _ => none

theorem apply_posts (server : Server) {request : Request} {uid : String} (other : request.target ≠ some uid) :
    (server.apply request).posts uid = server.posts uid := by
  cases request with
  | setValue owner key post => exact Function.update_of_ne (fun same => other (congrArg some same.symm)) _ _
  | removeValue owner key => exact Function.update_of_ne (fun same => other (congrArg some same.symm)) _ _
  | putObject => rfl
  | observe => rfl

theorem apply_log (server : Server) (request : Request) :
    (server.apply request).log = server.log ++ request.write.toList := by
  cases request <;> simp [Server.apply,Request.write]

-- What one account has kept, as a user would keep the books: saved posts in the
-- order of the saves, without those removed since.
def keep (uid : String) (kept : List Post) : Write → List Post
  | .saved owner post => if owner = uid then kept ++ [post] else kept
  | .removed owner key => if owner = uid then kept.filter (fun post => decide (post.id ≠ some key)) else kept
  | .stored _ => kept

def journal (uid : String) (log : List Write) : List Post := log.foldl (keep uid) []

theorem journal_snoc (uid : String) (log : List Write) (write : Write) :
    journal uid (log ++ [write]) = keep uid (journal uid log) write := by simp [journal]

def Write.save? : Write → Option (String × Post)
  | .saved uid post => some (uid,post)
  | _ => none

def saves (log : List Write) : List (String × Post) := log.filterMap Write.save?

theorem mem_saves {uid : String} {log : List Write} {post : Post} :
    (uid,post) ∈ saves log ↔ Write.saved uid post ∈ log := by
  simp only [saves,List.mem_filterMap]
  constructor
  · intro both
    obtain ⟨write,member,found⟩ := both
    cases write <;> cases found
    exact member
  · exact fun member => ⟨_,member,rfl⟩

@[simp] theorem keep_saved (uid owner : String) (kept : List Post) (post : Post) :
    keep uid kept (.saved owner post) = if owner = uid then kept ++ [post] else kept := rfl
@[simp] theorem keep_removed (uid owner key : String) (kept : List Post) :
    keep uid kept (.removed owner key) =
      if owner = uid then kept.filter (fun post => decide (post.id ≠ some key)) else kept := rfl
@[simp] theorem keep_stored (uid : String) (kept : List Post) (path : List String) :
    keep uid kept (.stored path) = kept := rfl

theorem keep_mem {uid : String} {kept : List Post} {write : Write} {post : Post} (member : post ∈ keep uid kept write) :
    post ∈ kept ∨ write = .saved uid post := by
  cases write with
  | saved owner new =>
      simp only [keep_saved] at member
      split at member
      · rename_i same
        rcases List.mem_append.mp member with old | added
        · exact .inl old
        · exact .inr (by rw [List.mem_singleton.mp added,same])
      · exact .inl member
  | removed owner key =>
      simp only [keep_removed] at member
      split at member
      · exact .inl (List.mem_of_mem_filter member)
      · exact .inl member
  | stored path => exact .inl member

theorem journal_saved {uid : String} {log : List Write} {post : Post} (member : post ∈ journal uid log) :
    Write.saved uid post ∈ log := by
  induction log using List.reverseRecOn with
  | nil => simp [journal] at member
  | append_singleton log write ih =>
      rw [journal_snoc] at member
      rcases keep_mem member with old | rfl
      · exact List.mem_append_left _ (ih old)
      · simp

theorem journal_sublist (uid : String) (log : List Write) :
    ((journal uid log).map fun post => (uid,post)).Sublist (saves log) := by
  induction log using List.reverseRecOn with
  | nil => exact .slnil
  | append_singleton log write ih =>
      rw [journal_snoc,saves,List.filterMap_append]
      cases write with
      | saved owner post =>
          simp only [keep_saved]
          split
          · rename_i same
            subst same
            rw [List.map_append]
            exact ih.append (List.Sublist.refl _)
          · exact ih.trans (List.sublist_append_left _ _)
      | removed owner key =>
          simp only [keep_removed]
          split
          · exact ((List.filter_sublist.map _).trans ih).trans (List.sublist_append_left _ _)
          · exact ih.trans (List.sublist_append_left _ _)
      | stored path => exact ih.trans (List.sublist_append_left _ _)

def Post.entry (post : Post) : String × Child := (post.id.getD "",record post)

def Post.fetched (post : Post) : Post := {post with image := none}

theorem mapM_entry {posts : List Post} (named : ∀ post ∈ posts, post.id.isSome = true) :
    (posts.map Post.entry).mapM (fun row => readPost row.2) = some (posts.map Post.fetched) := by
  induction posts with
  | nil => rfl
  | cons post rest ih =>
      obtain ⟨key,isKey⟩ := Option.isSome_iff_exists.mp (named post List.mem_cons_self)
      have first : readPost post.entry.2 = some post.fetched := readPost_record post isKey
      have others := ih fun p member => named p (List.mem_cons_of_mem _ member)
      simp [first,others]

structure Server.Sound (auto : AutoId) (server : Server) : Prop where
  drawn : (saves server.log).map (fun save => save.2.id) = (List.range server.drawn).map fun n => some (auto.key n)
  rows : ∀ uid, (server.posts uid).rows = (journal uid server.log).map Post.entry
  removed : ∀ uid key, Write.removed uid key ∈ server.log → ∃ n < server.drawn, key = auto.key n
  kept : ∀ uid post, post ∈ journal uid server.log ↔
    Write.saved uid post ∈ server.log ∧ ∀ key, post.id = some key → Write.removed uid key ∉ server.log
  objects : ∀ path, (server.objects path).isSome = true ↔ Write.stored path ∈ server.log

def Request.Drawn (auto : AutoId) (server : Server) : Request → Prop
  | .setValue _ key post => key = auto.key server.drawn ∧ post.id = some key
  | .removeValue _ key => ∃ n < server.drawn, key = auto.key n
  | .putObject _ _ | .observe _ => True

theorem Server.Sound.empty (auto : AutoId) : Server.empty.Sound auto :=
  ⟨rfl,fun _ => rfl,by simp [Server.empty],by simp [Server.empty,journal],by simp [Server.empty]⟩

theorem AutoId.key_injective (auto : AutoId) : Function.Injective auto.key := by
  intro m n same
  rcases Nat.lt_trichotomy m n with below | equal | above
  · exact absurd same (ne_of_lt (auto.increasing m n below))
  · exact equal
  · exact absurd same.symm (ne_of_lt (auto.increasing n m above))

theorem Server.Sound.drawn_id {auto : AutoId} {server : Server} (sound : server.Sound auto) {uid : String} {post : Post}
    (saved : Write.saved uid post ∈ server.log) : ∃ n < server.drawn, post.id = some (auto.key n) := by
  have listed : post.id ∈ (saves server.log).map fun save => save.2.id :=
    List.mem_map.mpr ⟨(uid,post),mem_saves.mpr saved,rfl⟩
  rw [sound.drawn] at listed
  obtain ⟨n,inside,same⟩ := List.mem_map.mp listed
  exact ⟨n,List.mem_range.mp inside,same.symm⟩

theorem Server.Sound.kept_id {auto : AutoId} {server : Server} (sound : server.Sound auto) {uid : String} {post : Post}
    (member : post ∈ journal uid server.log) : ∃ n < server.drawn, post.id = some (auto.key n) :=
  sound.drawn_id (journal_saved member)

theorem Server.Sound.ids_nodup {auto : AutoId} {server : Server} (sound : server.Sound auto) :
    ((saves server.log).map fun save => save.2.id).Nodup := by
  rw [sound.drawn]
  refine List.Nodup.map ?_ List.nodup_range
  intro m n same
  exact auto.key_injective (Option.some.inj same)

theorem Server.Sound.save_unique {auto : AutoId} {server : Server} (sound : server.Sound auto) {uid owner : String}
    {post other : Post} (first : Write.saved uid post ∈ server.log) (second : Write.saved owner other ∈ server.log)
    (same : post.id = other.id) : uid = owner ∧ post = other := by
  have equal := List.inj_on_of_nodup_map sound.ids_nodup (mem_saves.mpr first) (mem_saves.mpr second) same
  exact ⟨congrArg Prod.fst equal,congrArg Prod.snd equal⟩

theorem Server.Sound.setValue {auto : AutoId} {server : Server} (sound : server.Sound auto) {owner key : String}
    {post : Post} (drawn : (Request.setValue owner key post).Drawn auto server) :
    (server.apply (.setValue owner key post)).Sound auto := by
  obtain ⟨rfl,named⟩ := drawn
  refine ⟨?_,?_,?_,?_,fun path => by simpa [Server.apply] using sound.objects path⟩
  · simp only [Server.apply,saves,List.filterMap_append,List.map_append,List.range_succ]
    rw [← saves,sound.drawn]
    simp [Write.save?,named]
  · intro uid
    simp only [Server.apply,journal_snoc,keep]
    by_cases same : uid = owner
    · subst same
      have greatest : ∀ r ∈ (server.posts uid).rows, r.1 < auto.key server.drawn := by
        intro r member
        rw [sound.rows] at member
        obtain ⟨old,kept,rfl⟩ := List.mem_map.mp member
        obtain ⟨n,below,isKey⟩ := sound.kept_id kept
        simpa [Post.entry,isKey] using auto.increasing n _ below
      rw [Function.update_self,KeyedStore.put_rows,KeyedStore.place_last greatest,sound.rows]
      simp [Post.entry,named]
    · rw [Function.update_of_ne same,if_neg (Ne.symm same)]
      exact sound.rows uid
  · intro uid key member
    obtain ⟨n,below,isKey⟩ := sound.removed uid key (by simpa [Server.apply] using member)
    exact ⟨n,Nat.lt_succ_of_lt below,isKey⟩
  · intro uid p
    have unremoved : Write.removed uid (auto.key server.drawn) ∉ server.log := by
      intro member
      obtain ⟨n,below,same⟩ := sound.removed uid _ member
      exact absurd same (ne_of_gt (auto.increasing n _ below))
    simp only [Server.apply,journal_snoc,keep_saved,List.mem_append,List.mem_singleton,reduceCtorEq,or_false]
    by_cases same : owner = uid
    · subst same
      rw [if_pos rfl,List.mem_append,List.mem_singleton,sound.kept]
      constructor
      · intro either
        rcases either with ⟨saved,never⟩ | rfl
        · exact ⟨.inl saved,never⟩
        · exact ⟨.inr rfl,fun key isKey => by rw [named] at isKey; cases isKey; exact unremoved⟩
      · intro either
        rcases either with ⟨saved | new,never⟩
        · exact .inl ⟨saved,never⟩
        · cases new; exact .inr rfl
    · have other : ¬ Write.saved uid p = Write.saved owner post := fun new => by cases new; exact same rfl
      rw [if_neg same,sound.kept]
      simp [other]

theorem Server.Sound.removeValue {auto : AutoId} {server : Server} (sound : server.Sound auto) {owner key : String}
    (drawn : (Request.removeValue owner key).Drawn auto server) :
    (server.apply (.removeValue owner key)).Sound auto := by
  refine ⟨?_,?_,?_,?_,fun path => by simpa [Server.apply] using sound.objects path⟩
  · have same : saves (server.log ++ [Write.removed owner key]) = saves server.log := by
      simp [saves,Write.save?]
    exact same ▸ sound.drawn
  · intro uid
    simp only [Server.apply,journal_snoc,keep]
    by_cases same : uid = owner
    · subst same
      rw [Function.update_self,KeyedStore.erase_rows,sound.rows,if_pos rfl,List.filter_map]
      congr 1
      refine List.filter_congr fun post kept => ?_
      obtain ⟨n,_,isKey⟩ := sound.kept_id kept
      simp [Post.entry,isKey]
    · rw [Function.update_of_ne same,if_neg (Ne.symm same)]
      exact sound.rows uid
  · intro uid removed member
    simp only [Server.apply,List.mem_append,List.mem_singleton,Write.removed.injEq] at member
    rcases member with old | ⟨_,rfl⟩
    · exact sound.removed uid removed old
    · exact drawn
  · intro uid p
    simp only [Server.apply,journal_snoc,keep_removed,List.mem_append,List.mem_singleton,reduceCtorEq,or_false,
      Write.removed.injEq,not_or]
    by_cases same : owner = uid
    · subst same
      simp only [if_pos,List.mem_filter,decide_eq_true_eq,sound.kept,true_and]
      constructor
      · intro both
        obtain ⟨⟨saved,never⟩,other⟩ := both
        exact ⟨saved,fun k isKey => ⟨never k isKey,fun equal => other (isKey.trans (congrArg some equal))⟩⟩
      · intro both
        obtain ⟨saved,never⟩ := both
        exact ⟨⟨saved,fun k isKey => (never k isKey).1⟩,fun isKey => (never key isKey).2 rfl⟩
    · have other : ¬ uid = owner := Ne.symm same
      simp [if_neg same,sound.kept,other]

theorem Server.Sound.putObject {auto : AutoId} {server : Server} (sound : server.Sound auto) (path : List String)
    (data : List UInt8) : (server.apply (.putObject path data)).Sound auto := by
  have same : saves (server.log ++ [Write.stored path]) = saves server.log := by simp [saves,Write.save?]
  refine ⟨same ▸ sound.drawn,fun uid => ?_,fun uid key member => ?_,fun uid post => ?_,fun other => ?_⟩
  · simpa [Server.apply,journal_snoc] using sound.rows uid
  · exact sound.removed uid key (by simpa [Server.apply] using member)
  · simpa [Server.apply,journal_snoc] using sound.kept uid post
  · by_cases equal : other = path
    · simp [Server.apply,equal]
    · simpa [Server.apply,Function.update_of_ne equal,equal] using sound.objects other

theorem Server.Sound.apply {auto : AutoId} {server : Server} (sound : server.Sound auto) {request : Request}
    (drawn : request.Drawn auto server) : (server.apply request).Sound auto := by
  cases request with
  | setValue owner key post => exact sound.setValue drawn
  | removeValue owner key => exact sound.removeValue drawn
  | putObject path data => exact sound.putObject path data
  | observe uid => exact sound

end Journey
