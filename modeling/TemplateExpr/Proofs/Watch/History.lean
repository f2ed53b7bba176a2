import TemplateExpr.Proofs.Watch.Agreement
import TemplateExpr.Proofs.Watch.Numbering

/-!
# Requests to a shared cache

A cache of parsed texts and a builder of watch trees that uses it are asked for trees, again and
again. What was asked before shows in nothing but the numbers that are given out.

* `Request`, `served`          requests, and the builder after some of them;
* `ParseCache.find?_eq_some_iff`   an entry is known by its number;
* `WatchBuilder.build_moved`   a tree that is built later is the one that is built first, moved;
* `Serves`                     what the cache and the counter hold after some requests;
* `served_history`             each answer is the one that a fresh builder gives.
-/

namespace TemplateExpr

variable {W W' : Type}

/-! ## requests -/

/-- A request for the tree of a text, or for a watch tree of it. -/
inductive Request (W : Type) where
  | tree (source : String)
  | watch (h : Heap) (filters : FilterLookup W) (source : String) (asCollection : Bool)
      (context : Option Value)

namespace Request

def source : Request W → String
  | tree source => source
  | watch _ _ source _ _ => source

def bindsContext : Request W → Bool
  | tree _ => false
  | watch _ _ _ _ context => context.isSome

/-- The builder after a request. -/
def serve : Request W → WatchBuilder → WatchBuilder
  | tree source, b => stateAfter (WatchBuilder.parse source b)
  | watch h filters source asCollection context, b =>
    stateAfter (WatchBuilder.build h filters source asCollection context b)

end Request

/-- The builder after some requests, from a fresh one on. -/
def served (requests : List (Request W)) : WatchBuilder :=
  requests.foldl (fun b r => r.serve b) {}

theorem served_snoc (requests : List (Request W)) (r : Request W) :
    served (requests ++ [r]) = r.serve (served requests) := by
  unfold served
  rw [List.foldl_append]
  rfl

/-! ## the cache -/

namespace ParseCache

/-- The texts that were entered, in their order. -/
def sources (cache : ParseCache) : List String := cache.entries.toList.map Prod.fst

theorem size_eq_length_sources (cache : ParseCache) : cache.size = cache.sources.length := by
  rw [sources, List.length_map, Array.length_toList]
  rfl

theorem mem_sources {cache : ParseCache} {source : String} :
    source ∈ cache.sources ↔ ∃ (i : Nat) (tree : Expr), cache.entries[i]? = some (source, tree) := by
  rw [sources, List.mem_map]
  constructor
  · rintro ⟨⟨_, tree⟩, hmem, rfl⟩
    obtain ⟨i, hi⟩ := List.mem_iff_getElem?.mp hmem
    exact ⟨i, tree, by rwa [Array.getElem?_toList] at hi⟩
  · rintro ⟨i, tree, hi⟩
    refine ⟨(source, tree), ?_, rfl⟩
    rw [← Array.getElem?_toList] at hi
    exact List.mem_of_getElem? hi

/-- Each text was entered once. -/
def Distinct (cache : ParseCache) : Prop := cache.sources.Nodup

theorem Distinct.eq_of_getElem? {cache : ParseCache} (distinct : cache.Distinct) {i j : Nat}
    {source : String} {e e' : Expr} (hi : cache.entries[i]? = some (source, e))
    (hj : cache.entries[j]? = some (source, e')) : i = j := by
  have key : ∀ {k e}, cache.entries[k]? = some (source, e) →
      ∃ hk : k < cache.sources.length, cache.sources[k] = source := by
    intro k e h
    rw [← Array.getElem?_toList] at h
    have hget : cache.sources[k]? = some source := by
      rw [sources, List.getElem?_map, h]
      rfl
    exact List.getElem?_eq_some_iff.mp hget
  obtain ⟨hi', hi⟩ := key hi
  obtain ⟨hj', hj⟩ := key hj
  exact (distinct.getElem_inj_iff).mp (hi.trans hj.symm)

/-- A text is found at the number under which it was entered. -/
theorem find?_eq_some_iff {cache : ParseCache} (distinct : cache.Distinct) {source : String}
    {found : CachedTree} :
    cache.find? source = some found ↔
      cache.entries[found.number]? = some (source, found.tree) := by
  unfold find?
  constructor
  · intro h
    obtain ⟨number, hnumber, h⟩ := Option.bind_eq_some_iff.mp h
    obtain ⟨⟨key, tree⟩, hentry, rfl⟩ := Option.map_eq_some_iff.mp h
    obtain ⟨hlt, hkey, _⟩ := Array.findIdx?_eq_some_iff_getElem.mp hnumber
    obtain ⟨_, hget⟩ := Array.getElem?_eq_some_iff.mp hentry
    rw [hget, beq_iff_eq] at hkey
    rw [hentry, ← hkey]
  · intro h
    obtain ⟨hlt, hget⟩ := Array.getElem?_eq_some_iff.mp h
    have hnumber : cache.entries.findIdx? (·.1 == source) = some found.number := by
      refine Array.findIdx?_eq_some_iff_getElem.mpr ⟨hlt, by rw [hget]; exact beq_self_eq_true _, ?_⟩
      intro j hj hkey
      have hkey' : cache.entries[j].1 = source := beq_iff_eq.mp hkey
      have hj' : cache.entries[j]? = some (source, cache.entries[j].2) := by
        rw [Array.getElem?_eq_getElem (Nat.lt_trans hj hlt), ← hkey']
      exact absurd (distinct.eq_of_getElem? hj' h) (Nat.ne_of_lt hj)
    rw [hnumber, Option.bind_some, h]
    rfl

theorem find?_eq_none_iff {cache : ParseCache} {source : String} :
    cache.find? source = none ↔ source ∉ cache.sources := by
  unfold find?
  cases hnumber : cache.entries.findIdx? (·.1 == source) with
  | none =>
    refine iff_of_true rfl fun hmem => ?_
    obtain ⟨i, tree, hi⟩ := mem_sources.mp hmem
    have hkey := Array.findIdx?_eq_none_iff.mp hnumber _ (Array.mem_of_getElem? hi)
    exact absurd (beq_self_eq_true source) (by rw [hkey]; simp)
  | some number =>
    obtain ⟨hlt, hkey, _⟩ := Array.findIdx?_eq_some_iff_getElem.mp hnumber
    have hget := Array.getElem?_eq_getElem hlt
    refine iff_of_false (by rw [Option.bind_some, hget]; simp) (not_not_intro ?_)
    refine mem_sources.mpr ⟨number, cache.entries[number].2, ?_⟩
    rw [hget, ← beq_iff_eq.mp hkey]

/-- What a sound cache answers is what the parser answers. -/
theorem answer_parse {cache : ParseCache} (sound : cache.Sound) (source : String) :
    (answer (ParseCache.parse source cache)).map CachedTree.tree = Expr.parse source := by
  unfold ParseCache.parse
  cases hfind : cache.find? source with
  | some found => exact (parse_of_find? sound hfind).symm
  | none => cases Expr.parse source <;> rfl

/-- A text is entered if it is new and has a tree. -/
theorem stateAfter_parse_cases (source : String) (cache : ParseCache) :
    stateAfter (ParseCache.parse source cache) = cache ∧
        (source ∈ cache.sources ∨ (Expr.parse source).isOk = false) ∨
      ∃ tree, stateAfter (ParseCache.parse source cache) = ⟨cache.entries.push (source, tree)⟩ ∧
        source ∉ cache.sources ∧ Expr.parse source = .ok tree := by
  unfold ParseCache.parse
  cases hfind : cache.find? source with
  | some found =>
    refine .inl ⟨rfl, .inl ?_⟩
    by_contra hmem
    rw [find?_eq_none_iff.mpr hmem] at hfind
    cases hfind
  | none =>
    cases hparse : Expr.parse source with
    | ok tree => exact .inr ⟨tree, rfl, find?_eq_none_iff.mp hfind, rfl⟩
    | error e => exact .inl ⟨rfl, .inr rfl⟩

/-- The text that was parsed is found again. -/
theorem find?_of_parse {cache : ParseCache} {source : String} {found : CachedTree}
    (distinct : (stateAfter (ParseCache.parse source cache)).Distinct)
    (h : answer (ParseCache.parse source cache) = .ok found) :
    (stateAfter (ParseCache.parse source cache)).find? source = some found := by
  unfold ParseCache.parse at h distinct ⊢
  cases hfind : cache.find? source with
  | some known =>
    rw [hfind] at h
    cases h
    exact hfind
  | none =>
    rw [hfind] at h distinct
    cases hparse : Expr.parse source with
    | error e =>
      rw [hparse] at h
      cases h
    | ok tree =>
      rw [hparse] at h distinct
      cases h
      exact (find?_eq_some_iff distinct).mpr Array.getElem?_push_size

/-- What was entered stays where it is. -/
def Extends (cache cache' : ParseCache) : Prop :=
  ∀ (i : Nat) entry, cache.entries[i]? = some entry → cache'.entries[i]? = some entry

theorem extends_parse (source : String) (cache : ParseCache) :
    cache.Extends (stateAfter (ParseCache.parse source cache)) := by
  intro i entry hi
  obtain ⟨hsame, _⟩ | ⟨tree, hpush, _⟩ := stateAfter_parse_cases source cache
  · rwa [hsame]
  · rw [hpush]
    have hlt := (Array.getElem?_eq_some_iff.mp hi).1
    rwa [Array.getElem?_push_lt hlt, ← Array.getElem?_eq_getElem hlt]

end ParseCache

/-! ## building after other requests -/

namespace WatchBuilder

/-- The root of a tree whose context has the given number. -/
def rootAt (context : Option Value) (number : Nat) : Watch W :=
  match context with
  | none => .context
  | some v => .constant v (some ("#" ++ toString number))

theorem moved_rootAt (context : Option Value) (k n n' : Nat) :
    (rootAt context n : Watch W).moved k ("#" ++ toString n') = rootAt context n' := by
  cases context <;> rfl

/-- A request for a watch tree, step by step. -/
theorem build_eq (h : Heap) (filters : FilterLookup W) (source : String) (asCollection : Bool)
    (context : Option Value) (b : WatchBuilder) :
    build h filters source asCollection context b =
      let contexts := b.contexts + if context.isSome then 1 else 0
      match ParseCache.parse source b.cache with
      | .error e cache => .error (.source e) ⟨cache, contexts, b.memos⟩
      | .ok found cache =>
        match Watch.ofExpr h filters (rootAt context b.contexts) found.tree b.memos with
        | .error e memos => .error e ⟨cache, contexts, memos⟩
        | .ok w memos =>
          .ok (if asCollection then .collection w else w) ⟨cache, contexts, memos⟩ := by
  have hroot : root context b = .ok (rootAt (W := W) context b.contexts)
      ⟨b.cache, b.contexts + if context.isSome then 1 else 0, b.memos⟩ := by
    cases context <;> rfl
  unfold build
  rw [bind_apply, hroot]
  dsimp only
  rw [bind_apply]
  unfold parse
  cases ParseCache.parse source b.cache with
  | error e cache => rfl
  | ok found cache =>
    dsimp only
    rw [bind_apply]
    unfold onMemos
    cases Watch.ofExpr h filters (rootAt context b.contexts) found.tree b.memos with
    | error e memos => rfl
    | ok w memos => rfl

/-- Where the expressions are built behind other slots as they are built by themselves, so are the
trees of their texts. -/
theorem build_of_moves {b : WatchBuilder} (sound : b.cache.Sound) {h h₀ : Heap}
    {filters : FilterLookup W'} {filters₀ : FilterLookup W} {context context₀ : Option Value}
    {f : Watch W → Watch W'} (hcollection : ∀ w, f (.collection w) = .collection (f w))
    (source : String)
    (hmoves : ∀ e, Expr.parse source = .ok e →
      Moves b.memos f (Watch.ofExpr h₀ filters₀ (rootAt context₀ 0) e)
        (Watch.ofExpr h filters (rootAt context b.contexts) e))
    (asCollection : Bool) :
    answer (build h filters source asCollection context b) =
        (answer (build h₀ filters₀ source asCollection context₀ {})).map f ∧
      (stateAfter (build h filters source asCollection context b)).memos =
        b.memos.append (stateAfter (build h₀ filters₀ source asCollection context₀ {})).memos := by
  have hanswer := ParseCache.answer_parse sound source
  have hfresh := ParseCache.answer_parse ParseCache.sound_empty source
  rw [build_eq, build_eq]
  dsimp only
  change (answer (ParseCache.parse source ({} : WatchBuilder).cache)).map _ = _ at hfresh
  cases hb : ParseCache.parse source b.cache with
  | error e cache =>
    rw [hb] at hanswer
    cases hf : ParseCache.parse source ({} : WatchBuilder).cache with
    | ok found cache' =>
      rw [hf, ← hanswer] at hfresh
      cases hfresh
    | error e' cache' =>
      rw [hf, ← hanswer] at hfresh
      cases hfresh
      exact ⟨rfl, (Memos.append_empty b.memos).symm⟩
  | ok found cache =>
    rw [hb] at hanswer
    cases hf : ParseCache.parse source ({} : WatchBuilder).cache with
    | error e' cache' =>
      rw [hf, ← hanswer] at hfresh
      cases hfresh
    | ok found' cache' =>
      rw [hf, ← hanswer] at hfresh
      have htree : found'.tree = found.tree := Except.ok.inj hfresh
      have hmoves := hmoves found.tree hanswer.symm {}
      rw [Memos.append_empty] at hmoves
      dsimp only
      rw [hmoves, htree]
      cases Watch.ofExpr h₀ filters₀ (rootAt context₀ 0) found.tree {} with
      | error e memos => exact ⟨rfl, rfl⟩
      | ok w memos =>
        cases asCollection with
        | false => exact ⟨rfl, rfl⟩
        | true => exact ⟨congrArg Except.ok (hcollection w).symm, rfl⟩

/-- **A tree that is built after others is the one that is built first,** with its slots behind
theirs, the next number for its context, and the same slots made for it. -/
theorem build_moved {b : WatchBuilder} (sound : b.cache.Sound) (h : Heap)
    (filters : FilterLookup W) (source : String) (asCollection : Bool) (context : Option Value) :
    answer (build h filters source asCollection context b) =
        (answer (build h filters source asCollection context {})).map
          (Watch.moved b.memos.slots.size ("#" ++ toString b.contexts)) ∧
      (stateAfter (build h filters source asCollection context b)).memos =
        b.memos.append (stateAfter (build h filters source asCollection context {})).memos := by
  refine build_of_moves sound (fun w => by rw [Watch.moved]) source (fun e _ => ?_) asCollection
  have hmoves := Watch.moves_ofExpr b.memos ("#" ++ toString b.contexts) h filters
    (rootAt context 0) e
  rwa [Watch.MovesWhole, moved_rootAt] at hmoves

end WatchBuilder

/-! ## after some requests -/

/-- What the cache and the counter hold after some requests. -/
structure Serves (requests : List (Request W)) (b : WatchBuilder) : Prop where
  sound : b.cache.Sound
  distinct : b.cache.Distinct
  mem_sources : ∀ source, source ∈ b.cache.sources ↔
    source ∈ requests.map Request.source ∧ (Expr.parse source).isOk = true
  contexts : b.contexts = requests.countP Request.bindsContext

namespace Request

/-- Every request asks the cache once for its text, and counts its context whatever comes of it. -/
theorem serve_eq (r : Request W) (b : WatchBuilder) :
    (r.serve b).cache = stateAfter (ParseCache.parse r.source b.cache) ∧
      (r.serve b).contexts = b.contexts + if r.bindsContext then 1 else 0 := by
  cases r with
  | tree source =>
    show (stateAfter (WatchBuilder.parse source b)).cache =
        stateAfter (ParseCache.parse source b.cache) ∧
      (stateAfter (WatchBuilder.parse source b)).contexts = b.contexts
    unfold WatchBuilder.parse
    cases ParseCache.parse source b.cache <;> exact ⟨rfl, rfl⟩
  | watch h filters source asCollection context =>
    show (stateAfter (WatchBuilder.build h filters source asCollection context b)).cache =
        stateAfter (ParseCache.parse source b.cache) ∧
      (stateAfter (WatchBuilder.build h filters source asCollection context b)).contexts =
        b.contexts + if context.isSome then 1 else 0
    rw [WatchBuilder.build_eq]
    dsimp only
    cases ParseCache.parse source b.cache with
    | error e cache => exact ⟨rfl, rfl⟩
    | ok found cache =>
      dsimp only
      cases Watch.ofExpr h filters (WatchBuilder.rootAt context b.contexts) found.tree b.memos <;>
        exact ⟨rfl, rfl⟩

end Request

namespace Serves

theorem nil : Serves (W := W) [] {} := by
  refine ⟨ParseCache.sound_empty, List.nodup_nil, fun source => ?_, rfl⟩
  exact iff_of_false List.not_mem_nil fun h => List.not_mem_nil h.1

/-- One more request. -/
theorem snoc {requests : List (Request W)} {b : WatchBuilder} (hb : Serves requests b)
    (r : Request W) : Serves (requests ++ [r]) (r.serve b) := by
  have hcontexts : (r.serve b).contexts = (requests ++ [r]).countP Request.bindsContext := by
    rw [(r.serve_eq b).2, hb.contexts, List.countP_append, List.countP_singleton]
  have hmem : ∀ source, source ∈ (requests ++ [r]).map Request.source ↔
      source ∈ requests.map Request.source ∨ source = r.source := by
    intro source
    rw [List.map_append, List.mem_append, List.map_singleton, List.mem_singleton]
  obtain ⟨hsame, hwhy⟩ | ⟨tree, hpush, hnew, hparse⟩ :=
    ParseCache.stateAfter_parse_cases r.source b.cache
  · rw [← (r.serve_eq b).1] at hsame
    refine ⟨hsame ▸ hb.sound, hsame ▸ hb.distinct, fun source => ?_, hcontexts⟩
    rw [hsame, hb.mem_sources, hmem, or_and_right]
    refine (or_iff_left_of_imp ?_).symm
    rintro ⟨rfl, hok⟩
    rcases hwhy with hknown | hfail
    · exact (hb.mem_sources _).mp hknown
    · rw [hfail] at hok
      cases hok
  · rw [← (r.serve_eq b).1] at hpush
    have hsources : (r.serve b).cache.sources = b.cache.sources ++ [r.source] := by
      rw [hpush, ParseCache.sources, Array.toList_push, List.map_append]
      rfl
    refine ⟨fun entry hentry => ?_, ?_, fun source => ?_, hcontexts⟩
    · rw [hpush] at hentry
      rcases Array.mem_push.mp hentry with hold | rfl
      · exact hb.sound entry hold
      · exact hparse
    · show (r.serve b).cache.sources.Nodup
      rw [hsources]
      refine List.nodup_append.mpr ⟨hb.distinct, List.nodup_singleton _, ?_⟩
      rintro a ha c hc rfl
      exact hnew (List.mem_singleton.mp hc ▸ ha)
    · rw [hsources, List.mem_append, List.mem_singleton, hb.mem_sources, hmem, or_and_right]
      refine or_congr_right ⟨?_, And.left⟩
      rintro rfl
      exact ⟨rfl, by rw [hparse]; rfl⟩

end Serves

theorem serves_served (requests : List (Request W)) : Serves requests (served requests) := by
  induction requests using List.reverseRecOn with
  | nil => exact .nil
  | append_singleton requests r ih =>
    rw [served_snoc]
    exact ih.snoc r

/-- More requests leave the entries where they are. -/
theorem extends_served (requests more : List (Request W)) :
    (served requests).cache.Extends (served (requests ++ more)).cache := by
  induction more using List.reverseRecOn with
  | nil =>
    rw [List.append_nil]
    exact fun _ _ hi => hi
  | append_singleton more r ih =>
    rw [← List.append_assoc, served_snoc, (r.serve_eq _).1]
    exact fun i entry hi => ParseCache.extends_parse _ _ i entry (ih i entry hi)

namespace WatchBuilder

theorem answer_parse {b : WatchBuilder} (sound : b.cache.Sound) (source : String) :
    (answer (parse source b)).map CachedTree.tree =
      (Expr.parse source).mapError WatchError.source := by
  rw [← ParseCache.answer_parse sound]
  unfold parse
  cases ParseCache.parse source b.cache <;> rfl

theorem answer_parse_eq_ok {b : WatchBuilder} {source : String} {found : CachedTree}
    (h : answer (parse source b) = .ok found) :
    answer (ParseCache.parse source b.cache) = .ok found := by
  unfold parse at h
  cases hcache : ParseCache.parse source b.cache with
  | ok known cache =>
    rw [hcache] at h
    cases h
    rfl
  | error e cache =>
    rw [hcache] at h
    cases h

end WatchBuilder

/-- A text that was parsed is in the cache, under the number that was given out. -/
theorem entry_of_parse (requests : List (Request W)) {source : String} {found : CachedTree}
    (h : answer (WatchBuilder.parse source (served requests)) = .ok found) :
    (served (requests ++ [.tree source])).cache.entries[found.number]? =
      some (source, found.tree) := by
  have hserves := serves_served (requests ++ [.tree source])
  rw [served_snoc] at hserves ⊢
  rw [← ParseCache.find?_eq_some_iff hserves.distinct]
  have hdistinct := hserves.distinct
  rw [(Request.serve_eq _ _).1] at hdistinct ⊢
  exact ParseCache.find?_of_parse hdistinct (WatchBuilder.answer_parse_eq_ok h)

/-- One text has one tree, and two texts have two. -/
theorem found_again (requests more : List (Request W)) {source source' : String}
    {found found' : CachedTree}
    (hfound : answer (WatchBuilder.parse source (served requests)) = .ok found)
    (hfound' : answer (WatchBuilder.parse source' (served (requests ++ .tree source :: more))) =
      .ok found') :
    (source' = source → found' = found) ∧ (source' ≠ source → found'.number ≠ found.number) := by
  have hentry := extends_served (requests ++ [.tree source]) (more ++ [.tree source']) _ _
    (entry_of_parse requests hfound)
  have hentry' := entry_of_parse _ hfound'
  rw [List.append_assoc, List.singleton_append, ← List.cons_append, ← List.append_assoc] at hentry
  have hdistinct := (serves_served (requests ++ .tree source :: more ++ [.tree source'])).distinct
  constructor
  · rintro rfl
    have hnumber := hdistinct.eq_of_getElem? hentry' hentry
    rw [hnumber, hentry] at hentry'
    obtain ⟨number, tree⟩ := found
    obtain ⟨number', tree'⟩ := found'
    obtain rfl : number' = number := hnumber
    obtain rfl : tree = tree' := (Prod.mk.inj (Option.some.inj hentry')).2
    rfl
  · intro hne hnumber
    rw [hnumber, hentry] at hentry'
    exact hne (Prod.mk.inj (Option.some.inj hentry')).1.symm

/-- **What was asked before shows in nothing but numbers.** Each answer is the one that a fresh
cache and builder give, with the slots of a watch tree behind those of other trees and its context
numbered by the requests with one; a text keeps its tree, and the cache counts the texts that have
one. -/
theorem served_history (requests : List (Request W)) :
    (∀ source,
      (answer (WatchBuilder.parse source (served requests))).map CachedTree.tree =
        (answer (WatchBuilder.parse source {})).map CachedTree.tree) ∧
    (∀ (h : Heap) (filters : FilterLookup W) source asCollection context,
      answer (WatchBuilder.build h filters source asCollection context (served requests)) =
        (answer (WatchBuilder.build h filters source asCollection context {})).map
          (Watch.moved (served requests).memos.slots.size
            ("#" ++ toString (requests.countP Request.bindsContext))) ∧
      (stateAfter (WatchBuilder.build h filters source asCollection context
          (served requests))).memos =
        (served requests).memos.append
          (stateAfter (WatchBuilder.build h filters source asCollection context {})).memos) ∧
    (∀ source source' more found found',
      answer (WatchBuilder.parse source (served requests)) = .ok found →
      answer (WatchBuilder.parse source' (served (requests ++ .tree source :: more))) =
        .ok found' →
      (source' = source → found' = found) ∧
        (source' ≠ source → found'.number ≠ found.number)) ∧
    (served requests).cache.size =
      ((requests.map Request.source).toFinset.filter fun source =>
        (Expr.parse source).isOk = true).card := by
  have hserves := serves_served requests
  refine ⟨fun source => ?_, fun h filters source asCollection context => ?_, ?_, ?_⟩
  · rw [WatchBuilder.answer_parse hserves.sound, WatchBuilder.answer_parse ParseCache.sound_empty]
  · rw [← hserves.contexts]
    exact WatchBuilder.build_moved hserves.sound h filters source asCollection context
  · intro source source' more found found' hfound hfound'
    exact found_again requests more hfound hfound'
  · have hset : (served requests).cache.sources.toFinset =
        (requests.map Request.source).toFinset.filter fun source =>
          (Expr.parse source).isOk = true := by
      ext source
      rw [List.mem_toFinset, hserves.mem_sources, Finset.mem_filter, List.mem_toFinset]
    rw [← hset, List.toFinset_card_of_nodup hserves.distinct, ParseCache.size_eq_length_sources]

/-- A text whose watch tree is refused for its filter is in the cache, and its context is counted. -/
theorem served_history_refused :
    ∃ (requests : List (Request Unit)) (found found' : CachedTree),
      requests = [.watch .empty (fun _ => none) "a | f" false (some .null)] ∧
      answer (WatchBuilder.parse "a | f" (served requests)) = .ok found ∧
      answer (WatchBuilder.parse "a | f" (served (requests ++ .tree "a | f" :: [.tree ")"]))) =
        .ok found' ∧
      found' = found ∧ (served requests).cache.size = 1 ∧
      answer (WatchBuilder.build .empty (fun _ => none) "a" false (some .null)
        (served requests)) = .ok (.field (.constant .null (some "#1")) "a" : Watch Unit) := by
  have hfound : answer (WatchBuilder.parse "a | f" (served
      [(.watch .empty (fun _ => none) "a | f" false (some .null) : Request Unit)])) =
        .ok ⟨0, .filter (.scope "a") "f" []⟩ := by cbv
  have hfound' : answer (WatchBuilder.parse "a | f" (served
      [(.watch .empty (fun _ => none) "a | f" false (some .null) : Request Unit),
        .tree "a | f", .tree ")"])) = .ok ⟨0, .filter (.scope "a") "f" []⟩ := by cbv
  obtain ⟨_, hbuild, hagain, hsize⟩ := served_history
    [(.watch .empty (fun _ => none) "a | f" false (some .null) : Request Unit)]
  refine ⟨_, _, _, rfl, hfound, hfound', (hagain _ _ _ _ _ hfound hfound').1 rfl, ?_, ?_⟩
  · rw [hsize]
    decide +kernel
  · rw [(hbuild _ _ _ _ _).1]
    cbv

end TemplateExpr
