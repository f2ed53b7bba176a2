import TemplateExpr.Expr.Evaluate
import TemplateExpr.Proofs.Heap.Update

/-!
# Assignment through paths

* `Expr.IsPath`           a name of the scope, followed by members and literal keys;
* `Expr.evaluate_path`    evaluating such a tree follows its path;
* `Expr.assignTo_path`    what an assignment does to the heap;
* `Expr.assign_lawful`    an assignment succeeds and is an update, or fails and changes nothing.
-/

namespace TemplateExpr

variable {W : Type}

/-! ## one segment -/

theorem Heap.text_of_isScalar (h : Heap) {k : Value} (hk : k.isScalar = true) :
    h.text k = Snapshot.leafText k := by
  cases k <;> first | rfl | cases hk

namespace Value

variable (env : Embedding W)

def readAt (c : Value) : Segment → Action W Value
  | .member name => c.get env name
  | .key k _ => c.keyed env k

def writeAt (c v : Value) : Segment → Action W Unit
  | .member name => c.set env name v
  | .key k _ => c.setKeyed env k v

/-! An array takes a write up to a fixed distance past its end. -/

theorem setKeyed_of_near (s : Store W) {ref i : Nat} {key : Value}
    (hindex : key.asIndex? = some i) (hnear : i ≤ (s.heap.items ref).size + maxArrayGap)
    (v : Value) :
    (array ref).setKeyed env key v s =
      .ok () { s with heap := s.heap.setItems ref (setItem (s.heap.items ref) i v) } := by
  simp only [setKeyed, bind_apply, Action.heap, hindex, if_pos hnear]
  rfl

theorem setKeyed_of_far (s : Store W) {ref : Nat} {key : Value}
    (hfar : ∀ i, key.asIndex? = some i → (s.heap.items ref).size + maxArrayGap < i) (v : Value) :
    ∃ e, (array ref).setKeyed env key v s = .error e s := by
  cases hindex : key.asIndex? with
  | none =>
    simp only [setKeyed, bind_apply, Action.heap, hindex]
    exact ⟨_, rfl⟩
  | some i =>
    simp only [setKeyed, bind_apply, Action.heap, hindex, if_neg (Nat.not_le.mpr (hfar i hindex))]
    exact ⟨_, rfl⟩

variable {c : Value} (hc : c.isPlain = true) (s : Store W)
include hc

theorem get_apply (name : String) : c.get env name s = .ok (s.heap.property c name) s := by
  cases c with
  | host id => cases hc
  | overlay id scope locals => cases hc
  | array r =>
    by_cases hname : name = "length"
    · subst hname
      rfl
    · simp only [get, lookup, Heap.property, bind_apply, if_neg hname]
      rfl
  | str t =>
    by_cases hname : name = "length"
    · subst hname
      rfl
    · simp only [get, lookup, Heap.property, bind_apply, if_neg hname]
      rfl
  | _ => rfl

theorem readAt_apply (a : Segment) : c.readAt env a s = .ok (s.heap.step c a) s := by
  cases a with
  | member name =>
    rw [readAt, get_apply env hc s name]
    cases c <;> rfl
  | key k literal =>
    have hget : (do c.get env ((← Action.heap).text k) : Action W Value) s =
        .ok (s.heap.property c (Snapshot.leafText k)) s := by
      rw [bind_apply]
      show c.get env (s.heap.text k) s = _
      rw [s.heap.text_of_isScalar literal, get_apply env hc s]
    cases c with
    | null => rfl
    | host id => cases hc
    | overlay id scope locals => cases hc
    | array r =>
      show (array r).getKeyed env k s = _
      cases hint : k.asInt? with
      | none =>
        simp only [getKeyed, hint, Heap.step, Option.isSome_none]
        exact hget
      | some n =>
        simp only [getKeyed, hint, Heap.step, Option.isSome_some, if_true]
        rfl
    | str t =>
      show (str t).getKeyed env k s = _
      cases hint : k.asInt? with
      | none =>
        simp only [getKeyed, hint, Heap.step, Option.isSome_none]
        exact hget
      | some n =>
        simp only [getKeyed, hint, Heap.step, Option.isSome_some, if_true]
        rfl
    | _ => exact hget

theorem writeAt_of_takes {a : Segment} (htakes : ¬ s.heap.Refuses c a) (v : Value) :
    c.writeAt env v a s = .ok () { s with heap := s.heap.write c a v } := by
  cases c with
  | object r =>
    cases a with
    | member name => rfl
    | key k literal =>
      show (object r).set env (s.heap.text k) v s = _
      rw [s.heap.text_of_isScalar literal]
      rfl
  | array r =>
    cases a with
    | member name => exact absurd trivial htakes
    | key k literal =>
      cases hindex : k.asIndex? with
      | none => exact absurd (by simp only [Heap.Refuses, hindex]) htakes
      | some i =>
        have hle : i ≤ (s.heap.items r).size + maxArrayGap := by
          simp only [Heap.Refuses, hindex] at htakes
          omega
        rw [writeAt, setKeyed_of_near env s hindex hle, Heap.write, Segment.setItem, hindex]
  | _ => exact absurd trivial htakes

theorem writeAt_of_refuses {a : Segment} (hrefuses : s.heap.Refuses c a) (v : Value) :
    ∃ e, c.writeAt env v a s = .error e s := by
  cases c with
  | object r => cases hrefuses
  | host id => cases hc
  | overlay id scope locals => cases hc
  | array r =>
    cases a with
    | member name => exact ⟨_, rfl⟩
    | key k literal =>
      refine setKeyed_of_far env s (fun i hindex => ?_) v
      simpa only [Heap.Refuses, hindex] using hrefuses
  | _ => cases a <;> exact ⟨_, rfl⟩

end Value

/-! ## trees of paths -/

namespace Expr

/-- A tree that reads one segment further than another. -/
inductive Access (e : Expr) : Segment → Expr → Prop where
  | member (name) : Access e (.member name) (.member e name)
  | literal (k hk) : Access e (.key k hk) (.keyed e (.literal k))
  | text (s) : Access e (.key (.str s) rfl) (.keyed e (.str s))

inductive IsPath : Expr → List Segment → Prop where
  | scope (name) : IsPath (.scope name) [.member name]
  | access {e path a e'} : IsPath e path → Access e a e' → IsPath e' (path ++ [a])

variable (env : Embedding W) (filters : FilterLookup W)

theorem evaluate_access {e e' : Expr} {a : Segment} (h : Access e a e') (scope : Value) :
    e'.evaluate env filters scope =
      (do (← e.evaluate env filters scope).readAt env a) := by
  cases h with
  | member name => rw [evaluate]; rfl
  | literal k hk => rw [evaluate, evaluate]; rfl
  | text s => rw [evaluate, evaluate]; rfl

theorem assignTo_access {e e' : Expr} {a : Segment} (h : Access e a e') (scope v : Value) :
    e'.assignTo env filters scope v = (do
      let found ← e.evaluate env filters scope
      let target ← if found.isNull then do
          let fresh ← Action.newObject []
          e.assignTo env filters scope fresh
        else pure found
      target.writeAt env v a
      return v) := by
  cases h with
  | member name => rw [assignTo]; rfl
  | literal k hk => rw [assignTo, evaluate]; rfl
  | text s => rw [assignTo, evaluate]; rfl

variable {e : Expr} {path : List Segment} {root : Value} {s : Store W}

theorem evaluate_path (hpath : e.IsPath path)
    (hplain : ∀ j, j < path.length → (s.heap.follow root (path.take j)).isPlain = true) :
    e.evaluate env filters root s = .ok (s.heap.follow root path) s := by
  induction hpath with
  | scope name =>
    rw [evaluate]
    exact Value.readAt_apply env (hplain 0 (by simp)) s (.member name)
  | @access e path a e' _ haccess ih =>
    rw [evaluate_access env filters haccess, bind_apply, ih]
    · show (s.heap.follow root path).readAt env a s = _
      have hlast := hplain path.length (by simp)
      rw [List.take_left] at hlast
      rw [Value.readAt_apply env hlast, Heap.follow_concat]
    · intro j hj
      have hprefix := hplain j (by rw [List.length_append]; omega)
      rwa [List.take_append_of_le_length (by omega)] at hprefix

/-! ## assignments -/

/-- How an assignment ends: with an error if the value at `i` refuses the write, and else with an
update whose only write to the heap of before went to that value. -/
structure Assigned (s : Store W) (root : Value) (path : List Segment) (v : Value) (i : Nat)
    (a : Segment) (result : EStateM.Result EvalError (Store W) Value) : Prop where
  refused : s.heap.Refuses (s.heap.follow root (path.take i)) a →
    ∃ e t, result = .error e t ∧ t.world = s.world ∧ s.heap.Extends t.heap
  taken : ¬ s.heap.Refuses (s.heap.follow root (path.take i)) a →
    ∃ t, result = .ok v t ∧ t.world = s.world ∧ s.heap.Updated t.heap root path i v ∧
      (s.heap.write (s.heap.follow root (path.take i)) a
        (t.heap.follow root (path.take (i + 1)))).Extends t.heap

/-- The value before the last segment is there. -/
theorem assigned_found (hroot : s.heap.PlainData root) (path : List Segment) (a : Segment)
    (v : Value) :
    Assigned s root (path ++ [a]) v path.length a
      ((do (s.heap.follow root path).writeAt env v a; return v : Action W Value) s) := by
  have hplain := (hroot.follow path).isPlain
  constructor
  · rw [List.take_left]
    intro hrefuses
    obtain ⟨e, he⟩ := Value.writeAt_of_refuses env hplain s hrefuses v
    refine ⟨e, s, ?_, rfl, .refl _⟩
    rw [bind_apply, he]
  · rw [List.take_left]
    intro htakes
    have hupdated := s.heap.updated_write hroot htakes v
    refine ⟨{ s with heap := s.heap.write (s.heap.follow root path) a v }, ?_, rfl, hupdated, ?_⟩
    · rw [bind_apply, Value.writeAt_of_takes env hplain s htakes]
      rfl
    · rw [List.take_of_length_le (by simp), hupdated.value]
      exact .refl _

/-- The value before the last segment is missing, and `x` assigns a fresh object to its place. -/
theorem assigned_missing (hroot : s.heap.PlainData root) (a b : Segment) (v : Value) {i : Nat}
    (hi : i < path.length) {s₁ : Store W} (hs₁ : s₁ = { s with heap := (s.heap.newObject []).2 })
    {x : Action W Value}
    (hassigned : Assigned s₁ root path (.object s.heap.objects.size) i b (x s₁)) :
    Assigned s root (path ++ [a]) v i b
      ((do (← x).writeAt env v a; return v : Action W Value) s₁) := by
  have hfresh : s₁.heap = (s.heap.newObject []).2 := by rw [hs₁]
  have hworld : s₁.world = s.world := by rw [hs₁]
  have hext : s.heap.Extends s₁.heap := hfresh ▸ s.heap.extends_newObject []
  have hrefuses := hext.refuses_iff (a := b) (hroot.follow (path.take i))
  constructor
  · rw [List.take_append_of_le_length (by omega), ← hrefuses, ← hext.follow_eq hroot]
    intro hrefused
    obtain ⟨e, t, hx, ht, hgrown⟩ := hassigned.refused hrefused
    refine ⟨e, t, ?_, ht.trans hworld, hext.trans hgrown⟩
    rw [bind_apply, hx]
  · rw [List.take_append_of_le_length (by omega), ← hrefuses, ← hext.follow_eq hroot]
    intro htakes
    obtain ⟨t, hx, ht, hupdated, hgrown⟩ := hassigned.taken htakes
    rw [hext.follow_eq hroot] at hgrown
    refine ⟨{ t with heap := t.heap.write (.object s.heap.objects.size) a v }, ?_,
      ht.trans hworld, hupdated.below hroot hfresh hi hgrown, ?_⟩
    · rw [bind_apply, hx]
      show (do (Value.object _).writeAt env v a; return v : Action W Value) t = _
      rw [bind_apply, Value.writeAt_of_takes env rfl t id]
      rfl
    · rw [hext.follow_eq hroot]
      exact hupdated.grown_below hroot hfresh hi hgrown

theorem assignTo_path (hpath : e.IsPath path) (hroot : s.heap.PlainData root) (hne : root ≠ .null)
    (v : Value) :
    ∃ i a, s.heap.Deepest root path i a ∧
      Assigned s root path v i a (e.assignTo env filters root v s) := by
  -- The induction is on the tree; `v` and the store change where a fresh object is assigned first.
  induction hpath generalizing v s with
  | scope name =>
    have hfound : s.heap.follow root [] ≠ .null := hne
    rw [assignTo]
    exact ⟨0, .member name, Heap.deepest_concat hfound _,
      assigned_found env hroot [] (.member name) v⟩
  | @access e path a e' hpath haccess ih =>
    have hfollow := evaluate_path env filters (s := s) hpath fun j _ =>
      (hroot.follow (path.take j)).isPlain
    rw [assignTo_access env filters haccess, bind_apply, hfollow]
    by_cases hmissing : s.heap.follow root path = .null
    · have hext := s.heap.extends_newObject []
      obtain ⟨i, b, hdeepest, hassigned⟩ :=
        ih (s := { s with heap := (s.heap.newObject []).2 }) (hroot.mono hext)
          (.object s.heap.objects.size)
      have hi := (List.getElem?_eq_some_iff.mp hdeepest.segment).1
      refine ⟨i, b, hdeepest.concat hext hroot hmissing a, ?_⟩
      rw [hmissing]
      exact assigned_missing env hroot a b v hi rfl hassigned
    · have hnull : (s.heap.follow root path).isNull = false := by
        cases hc : s.heap.follow root path with
        | null => exact absurd hc hmissing
        | _ => rfl
      refine ⟨path.length, a, Heap.deepest_concat hmissing a, ?_⟩
      simp only [hnull]
      exact assigned_found env hroot path a v

/-- The path can be read after an update. -/
theorem evaluate_updated (hpath : e.IsPath path) (hroot : s.heap.PlainData root) {t : Store W}
    {i : Nat} {v : Value} (hupdated : s.heap.Updated t.heap root path i v) :
    e.evaluate env filters root t = .ok v t := by
  rw [evaluate_path env filters hpath, hupdated.value]
  intro j hj
  by_cases hji : j ≤ i
  · rw [hupdated.kept j hji]
    exact (hroot.follow _).isPlain
  · obtain ⟨r, _, hfollow, _⟩ :=
      hupdated.made j path[j] (by omega) (List.getElem?_eq_getElem hj)
    rw [hfollow]
    rfl

/-- **Assignment is a lawful and atomic update.** Where the deepest value on the path that is there
refuses the write, the assignment fails and all that was in the heap is as before. Else it gives the
value, the path leads to it, and no slot of the heap of before has changed but the one that was
written to and those that pad its array. -/
theorem assign_lawful (hpath : e.IsPath path) {ref : Nat}
    (hscope : s.heap.PlainData (.object ref)) (v : Value) :
    (∀ filters, e.evaluate env filters (.object ref) s =
      .ok (s.heap.follow (.object ref) path) s) ∧
    ∃ i a, s.heap.Deepest (.object ref) path i a ∧
      (s.heap.Refuses (s.heap.follow (.object ref) (path.take i)) a →
        ∃ error t, e.assignValue env (.object ref) v s = .error error t ∧ t.world = s.world ∧
          s.heap.Extends t.heap) ∧
      (¬ s.heap.Refuses (s.heap.follow (.object ref) (path.take i)) a →
        ∃ t, e.assignValue env (.object ref) v s = .ok v t ∧ t.world = s.world ∧
          (∀ filters, e.evaluate env filters (.object ref) t = .ok v t) ∧
          s.heap.Updated t.heap (.object ref) path i v ∧
          ∀ slot, s.heap.Knows slot →
            (s.heap.follow (.object ref) (path.take i)).slot? a ≠ some slot →
            t.heap.at? slot = s.heap.at? slot ∨
              ∃ last, (s.heap.follow (.object ref) (path.take i)).slot? a = some last ∧
                slot.Before last ∧ s.heap.at? slot = none ∧ t.heap.at? slot = some .null) := by
  refine ⟨fun filters => evaluate_path env filters hpath fun j _ => (hscope.follow _).isPlain, ?_⟩
  obtain ⟨i, a, hdeepest, hassigned⟩ :=
    assignTo_path env FilterLookup.none hpath hscope (by simp) v
  refine ⟨i, a, hdeepest, hassigned.refused, fun htakes => ?_⟩
  obtain ⟨t, ht, hworld, hupdated, hgrown⟩ := hassigned.taken htakes
  refine ⟨t, ht, hworld, fun filters => evaluate_updated env filters hpath hscope hupdated,
    hupdated, fun slot hknown hother => ?_⟩
  rw [hgrown.at?_eq (Heap.knows_write hknown)]
  exact Heap.at?_write (hscope.follow _) _ hother

/-- A scope with `a` an object and `a.b` an array of one item. -/
def nestedStore : Store Unit where
  heap := { arrays := #[#[.int 1]], objects := #[[("a", .object 1)], [("b", .array 0)]] }
  world := ()

theorem plainData_nestedStore : nestedStore.heap.PlainData (.object 0) := by
  have harray : nestedStore.heap.PlainData (.array 0) := by
    refine .array (by decide) ?_
    show ∀ v ∈ [Value.int 1], _
    exact List.forall_mem_singleton.mpr (.leaf rfl rfl)
  have hinner : nestedStore.heap.PlainData (.object 1) := by
    refine .object (by decide) ?_
    show ∀ p ∈ [("b", Value.array 0)], _
    exact List.forall_mem_singleton.mpr harray
  refine .object (by decide) ?_
  show ∀ p ∈ [("a", Value.object 1)], _
  exact List.forall_mem_singleton.mpr hinner

/-- `a.b[3].c` -/
def nestedPath : List Segment := [.member "a", .member "b", .key (.int 3) rfl, .member "c"]

def nestedTarget : Expr := .member (.keyed (.member (.scope "a") "b") (.literal (.int 3))) "c"

theorem isPath_nestedTarget : nestedTarget.IsPath nestedPath :=
  .access (.access (.access (.scope "a") (.member "b")) (.literal (.int 3) rfl)) (.member "c")

/-- The array grows by two nulls and a fresh object, and its first item stays. -/
theorem assign_lawful_padded :
    nestedTarget.IsPath nestedPath ∧ nestedStore.heap.PlainData (.object 0) ∧
      ∃ t, nestedTarget.assignValue .none (.object 0) (.int 7) nestedStore = .ok (.int 7) t ∧
        nestedTarget.evaluate .none FilterLookup.none (.object 0) t = .ok (.int 7) t ∧
        t.heap.at? (.item 0 0) = some (.int 1) := by
  refine ⟨isPath_nestedTarget, plainData_nestedStore, ?_⟩
  obtain ⟨_, i, a, hdeepest, _, htaken⟩ :=
    assign_lawful .none isPath_nestedTarget plainData_nestedStore (.int 7)
  have hlt : i < 4 := (List.getElem?_eq_some_iff.mp hdeepest.segment).1
  have hle : 2 ≤ i := by
    by_contra hlow
    cases hdeepest.missing 2 (by omega) (by decide)
  have hne : i ≠ 3 := by
    rintro rfl
    exact hdeepest.found rfl
  obtain rfl : i = 2 := by omega
  obtain rfl : .key (.int 3) rfl = a := Option.some.inj hdeepest.segment
  have htakes : ¬ nestedStore.heap.Refuses (.array 0) (.key (.int 3) rfl) := by
    show ¬ 1 + maxArrayGap < 3
    decide
  obtain ⟨t, hassign, _, hvalue, _, hslots⟩ := htaken htakes
  refine ⟨t, hassign, hvalue FilterLookup.none, ?_⟩
  have hother : (Value.array 0).slot? (.key (.int 3) rfl) ≠ some (.item 0 0) := by
    intro heq
    cases heq
  rcases hslots (.item 0 0) (by decide : 0 < 1) hother with hsame | ⟨_, _, _, hnone, _⟩
  · exact hsame
  · cases hnone

end Expr

end TemplateExpr
