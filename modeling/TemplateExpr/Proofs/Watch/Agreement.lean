import Mathlib
import TemplateExpr.Proofs.Watch.Simulation

/-!
# Watching agrees with evaluating

* `ParseCache.Sound`       the entered trees are those of their texts;
* `WatchBuilder.build_eq_ok`    what a built tree is made of;
* `WatchBuilder.read_build`     reading a fresh tree is evaluating its text eagerly;
* `WatchBuilder.read_build_eq_evaluate`   and evaluating it, if nothing in it is lazy.
-/

namespace TemplateExpr

/-! ## parsed texts -/

namespace ParseCache

def Sound (cache : ParseCache) : Prop :=
  ∀ entry ∈ cache.entries, Expr.parse entry.1 = .ok entry.2

theorem sound_empty : empty.Sound := by
  intro entry h
  simp [empty] at h

theorem parse_of_find? {cache : ParseCache} (sound : cache.Sound) {source : String}
    {found : CachedTree} (h : cache.find? source = some found) :
    Expr.parse source = .ok found.tree := by
  unfold find? at h
  obtain ⟨number, hnumber, h⟩ := Option.bind_eq_some_iff.mp h
  obtain ⟨entry, hentry, rfl⟩ := Option.map_eq_some_iff.mp h
  obtain ⟨hlt, hkey, _⟩ := Array.findIdx?_eq_some_iff_getElem.mp hnumber
  obtain ⟨_, hget⟩ := Array.getElem?_eq_some_iff.mp hentry
  rw [hget, beq_iff_eq] at hkey
  have hparse := sound entry (Array.mem_of_getElem? hentry)
  rwa [hkey] at hparse

/-- A cache that answers stays sound, and the answer is the tree of the text. -/
theorem parse_eq_ok {cache cache' : ParseCache} (sound : cache.Sound) {source : String}
    {found : CachedTree} (h : ParseCache.parse source cache = .ok found cache') :
    Expr.parse source = .ok found.tree ∧ cache'.Sound := by
  unfold ParseCache.parse at h
  split at h
  · next known hfind =>
    cases h
    exact ⟨parse_of_find? sound hfind, sound⟩
  · split at h
    · next tree hparse =>
      cases h
      refine ⟨hparse, fun entry hentry => ?_⟩
      rcases Array.mem_push.mp hentry with hold | rfl
      · exact sound entry hold
      · exact hparse
    · simp at h

end ParseCache

/-! ## building -/

namespace Watch

variable {W : Type}

/-- The node that the scope of a tree is read from. -/
def IsRoot (context : Option Value) : Watch W → Prop
  | .context => context = none
  | .constant v _ => context = some v
  | _ => False

theorem read_of_isRoot {context : Option Value} {root : Watch W} (h : IsRoot context root)
    (env : Embedding W) (ambient : Value) (s : WatchStore W) :
    root.read env ambient s = .ok (.value (context.getD ambient)) s := by
  cases root with
  | context =>
    have hnone : context = none := h
    rw [read, hnone]
    rfl
  | constant v id =>
    have hsome : context = some v := h
    rw [read, hsome]
    rfl
  | _ => exact absurd h id

theorem isCollection_ofExpr {h : Heap} {filters : FilterLookup W} {root w : Watch W} {e : Expr}
    {m m' : Memos} (hb : ofExpr h filters root e m = .ok w m') : w.isCollection = false := by
  cases e with
  | scope | literal | str =>
    rw [ofExpr] at hb
    cases hb
    rfl
  | member | not | callScope | array | object =>
    rw [ofExpr] at hb
    obtain ⟨_, _, _, hb⟩ := bind_eq_ok hb
    cases hb
    rfl
  | callMember | binary | keyed =>
    rw [ofExpr] at hb
    obtain ⟨_, _, _, hb⟩ := bind_eq_ok hb
    obtain ⟨_, _, _, hb⟩ := bind_eq_ok hb
    cases hb
    rfl
  | conditional =>
    rw [ofExpr] at hb
    obtain ⟨_, _, _, hb⟩ := bind_eq_ok hb
    obtain ⟨_, _, _, hb⟩ := bind_eq_ok hb
    obtain ⟨_, _, _, hb⟩ := bind_eq_ok hb
    cases hb
    rfl
  | filter input name args =>
    rw [ofExpr] at hb
    cases hf : filters name with
    | none => rw [hf] at hb; simp [refuse] at hb
    | some run =>
      simp only [hf] at hb
      obtain ⟨_, _, _, hb⟩ := bind_eq_ok hb
      obtain ⟨_, _, _, hb⟩ := bind_eq_ok hb
      obtain ⟨_, _, _, hb⟩ := bind_eq_ok hb
      cases hb
      rfl
  | callFunction | assign | chain =>
    rw [ofExpr] at hb
    simp [refuse] at hb

/-- Only a collection reports changes. -/
theorem observed_of_read {env : Embedding W} {ambient : Value} {w : Watch W} {o : Observed}
    {s s' : WatchStore W} (hr : w.read env ambient s = .ok o s') :
    o = if w.isCollection then .changes o.get else .value o.get := by
  cases w with
  | context | constant =>
    rw [read] at hr
    cases hr
    rfl
  | field =>
    rw [read] at hr
    obtain ⟨_, _, _, hr⟩ := bind_eq_ok hr
    obtain ⟨_, _, _, hr⟩ := bind_eq_ok hr
    cases hr
    rfl
  | method base name args =>
    rw [read] at hr
    obtain ⟨b, s₁, _, hr⟩ := bind_eq_ok hr
    dsimp only at hr
    split at hr
    · cases hr
      rfl
    · obtain ⟨_, _, _, hr⟩ := bind_eq_ok hr
      obtain ⟨v, _, _, hr⟩ := bind_eq_ok hr
      cases v with
      | some v => cases hr; rfl
      | none => cases hr
  | compute =>
    rw [read] at hr
    obtain ⟨_, _, _, hr⟩ := bind_eq_ok hr
    obtain ⟨_, _, _, hr⟩ := bind_eq_ok hr
    cases hr
    rfl
  | collection =>
    rw [read] at hr
    obtain ⟨_, _, _, hr⟩ := bind_eq_ok hr
    cases hr
    rfl

end Watch

namespace WatchBuilder

variable {W : Type} {h : Heap} {filters : FilterLookup W} {source : String} {asCollection : Bool}
  {context : Option Value} {b b' : WatchBuilder} {tree : Watch W}

theorem root_eq_ok {w : Watch W} (hr : root context b = .ok w b') :
    Watch.IsRoot context w ∧ b'.cache = b.cache ∧ b'.memos = b.memos := by
  unfold root at hr
  cases context with
  | none => cases hr; exact ⟨rfl, rfl, rfl⟩
  | some v => cases hr; exact ⟨rfl, rfl, rfl⟩

theorem parse_eq_ok (sound : b.cache.Sound) {found : CachedTree}
    (hp : parse source b = .ok found b') :
    Expr.parse source = .ok found.tree ∧ b'.cache.Sound ∧ b'.memos = b.memos := by
  unfold parse at hp
  split at hp
  · next hcache =>
    cases hp
    obtain ⟨hparse, hsound⟩ := ParseCache.parse_eq_ok sound hcache
    exact ⟨hparse, hsound, rfl⟩
  · cases hp

theorem onMemos_eq_ok {α : Type} {x : Watch.Build α} {a : α} (hx : onMemos x b = .ok a b') :
    x b.memos = .ok a b'.memos ∧ b'.cache = b.cache := by
  unfold onMemos at hx
  split at hx
  · next hmemos => cases hx; exact ⟨hmemos, rfl⟩
  · cases hx

/-- What a successful build has done. -/
theorem build_eq_ok (sound : b.cache.Sound)
    (built : build h filters source asCollection context b = .ok tree b') :
    b'.cache.Sound ∧ ∃ e root w, Expr.parse source = .ok e ∧ Watch.IsRoot context root ∧
      Watch.ofExpr h filters root e b.memos = .ok w b'.memos ∧
      tree = if asCollection then .collection w else w := by
  unfold build at built
  obtain ⟨root, b₁, hroot, built⟩ := bind_eq_ok built
  obtain ⟨found, b₂, hfound, built⟩ := bind_eq_ok built
  obtain ⟨w, b₃, hw, built⟩ := bind_eq_ok built
  cases built
  obtain ⟨hisRoot, hcache, hmemos⟩ := root_eq_ok hroot
  obtain ⟨hparse, hsound, hmemos'⟩ := parse_eq_ok (hcache ▸ sound) hfound
  obtain ⟨hofExpr, hcache'⟩ := onMemos_eq_ok hw
  refine ⟨hcache' ▸ hsound, found.tree, root, w, hparse, hisRoot, ?_, rfl⟩
  rwa [hmemos', hmemos] at hofExpr

/-- Reading a fresh tree does what evaluating the text with nothing skipped does, and reports the
value as it was asked for. -/
theorem read_build {e : Expr} (sound : b.cache.Sound)
    (built : build h filters source asCollection context b = .ok tree b')
    (parsed : Expr.parse source = .ok e) (ambient : Value)
    (nonnull : (context.getD ambient).isNull = false) (env : Embedding W) (s : Store W)
    {m : Memos} (fresh : b'.memos.Untouched b.memos.slots.size b'.memos.slots.size m) :
    ∃ m', tree.read env ambient ⟨s, m⟩ =
      match e.evaluateEagerly env filters (context.getD ambient) s with
      | .ok v s' => .ok (if asCollection then .changes v else .value v) ⟨s', m'⟩
      | .error err s' => .error err ⟨s', m'⟩ := by
  obtain ⟨_, e', root, w, hparse, hroot, hw, rfl⟩ := build_eq_ok sound built
  obtain rfl : e = e' := by
    rw [hparse] at parsed
    cases parsed
    rfl
  obtain ⟨_, hreads⟩ := Watch.reads_ofExpr (Watch.read_of_isRoot hroot env ambient) nonnull e
    b.memos w b'.memos hw
  have htree : Watch.Reads env ambient b'.memos b.memos.slots.size b'.memos.slots.size
      (if asCollection then .collection w else w)
      (e.evaluateEagerly env filters (context.getD ambient)) := by
    cases asCollection with
    | true => exact Watch.reads_collection hreads
    | false => exact hreads
  have hkind : (if asCollection then Watch.collection w else w).isCollection = asCollection := by
    cases asCollection with
    | true => rfl
    | false => exact Watch.isCollection_ofExpr hw
  obtain ⟨hvisible, _⟩ := htree s m fresh
  rw [← hvisible]
  cases hr : (if asCollection then Watch.collection w else w).read env ambient ⟨s, m⟩ with
  | error err s' => exact ⟨s'.memos, rfl⟩
  | ok o s' =>
    have ho := Watch.observed_of_read hr
    rw [hkind] at ho
    refine ⟨s'.memos, ?_⟩
    show _ = EStateM.Result.ok
      (if asCollection then Observed.changes o.get else Observed.value o.get) _
    rw [← ho]

/-- Watching agrees with evaluating, effects included. The functions, filters and host objects are
any, and so are the heap and the state they work on, so that they are called with the same arguments
in the same order. -/
theorem read_build_eq_evaluate {e : Expr} (sound : b.cache.Sound)
    (built : build h filters source asCollection context b = .ok tree b')
    (parsed : Expr.parse source = .ok e) (strict : ∀ d, Expr.Within d e → d.isLazy = false)
    (ambient : Value) (nonnull : (context.getD ambient).isNull = false) (env : Embedding W)
    (s : Store W) {m : Memos}
    (fresh : b'.memos.Untouched b.memos.slots.size b'.memos.slots.size m) :
    ∃ m', tree.read env ambient ⟨s, m⟩ =
      match e.evaluate env filters (context.getD ambient) s with
      | .ok v s' => .ok (if asCollection then .changes v else .value v) ⟨s', m'⟩
      | .error err s' => .error err ⟨s', m'⟩ := by
  rw [← Expr.evaluateEagerly_eq env filters _ strict]
  exact read_build sound built parsed ambient nonnull env s fresh

/-- A filter that writes its arguments to a log is called once, with the value of `a`. -/
theorem read_build_eq_evaluate_logged :
    ∃ (tree : Watch (List (List Value))) (b' : WatchBuilder) (m' : Memos),
      build .empty (fun _ => some fun args s => .ok .null ⟨s.heap, args :: s.world⟩) "a | log"
        false none {} = .ok tree b' ∧
      tree.read .none (.object 0) ⟨⟨{ objects := #[[("a", .int 2)]] }, []⟩, b'.memos⟩ =
        .ok (.value .null) ⟨⟨{ objects := #[[("a", .int 2)]] }, [[.int 2]]⟩, m'⟩ := by
  have parsed : Expr.parse "a | log" = .ok (.filter (.scope "a") "log" []) := by cbv
  obtain ⟨tree, b', built⟩ : ∃ (tree : Watch (List (List Value))) (b' : WatchBuilder),
      build .empty (fun _ => some fun args s => .ok .null ⟨s.heap, args :: s.world⟩) "a | log"
        false none {} = .ok tree b' := ⟨_, _, by cbv⟩
  have strict : ∀ d, Expr.Within d (.filter (.scope "a") "log" []) → d.isLazy = false := by
    refine Expr.forall_within_iff.mpr ⟨rfl, fun p hp => ?_⟩
    obtain rfl : p = .scope "a" := by simpa [Expr.parts] using hp
    exact Expr.forall_within_iff.mpr ⟨rfl, by simp [Expr.parts]⟩
  obtain ⟨m', hread⟩ := read_build_eq_evaluate ParseCache.sound_empty built parsed strict
    (.object 0) rfl .none ⟨{ objects := #[[("a", .int 2)]] }, []⟩ fun _ _ _ => rfl
  exact ⟨tree, b', m', built, hread⟩

end WatchBuilder

end TemplateExpr
