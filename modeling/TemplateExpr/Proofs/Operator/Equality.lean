import TemplateExpr.Proofs.Heap.Data
import TemplateExpr.Proofs.Operator.Ordering

/-!
# The equalities of values

Values are compared in four ways: by identity, strictly, loosely, and by their contents. Each way
is symmetric. Identity implies strict equality, which implies loose equality, and identity implies
equality of contents.

* `Value.Equates`              symmetric, transitive, and true of each value that is no NaN;
* `Value.equates_same`         identity;
* `Value.looseEquals_of_strictEquals`   from strict to loose equality;
* `Heap.equates_equals`        equality of contents;
* `Heap.equals_eq`             which on acyclic values compares what is inside by itself;
* `Value.LeastPlace`           the place of an item, which `indexOf` answers;
* `Value.equalities_coherent`  the four equalities together.
-/

namespace TemplateExpr

/-! ## floats -/

namespace Binary64

theorem beq_comm (x y : Float) : (x == y) = (y == x) := by
  rw [Bool.eq_iff_iff, beq_iff, beq_iff, compare_swap]
  cases y.toModel.unpack.compare x.toModel.unpack with
  | none => simp
  | some o => cases o <;> simp

theorem beq_zeros (a b : Bool) : (zero a == zero b) = true := by
  cases a <;> cases b <;> rfl

theorem beq_trans {x y z : Float} (hxy : (x == y) = true) (hyz : (y == z) = true) :
    (x == z) = true := by
  rcases eq_or_zeros_of_beq hxy with rfl | ⟨a, b, rfl, rfl⟩
  · exact hyz
  · rcases eq_or_zeros_of_beq hyz with rfl | ⟨_, c, _, rfl⟩
    · exact hxy
    · exact beq_zeros a c

theorem beq_self_of_isNaN {x : Float} (h : x.isNaN = false) : (x == x) = true := by
  rw [beq_iff]
  refine compare_self fun hnan => ?_
  have hisNaN : x.toModel.unpack.isNaN = false := h
  rw [hnan] at hisNaN
  cases hisNaN

end Binary64

/-! ## identity -/

namespace Value

def isNaN : Value → Bool
  | float x => x.isNaN
  | _ => false

/-- A comparison that is symmetric and transitive, and that finds each value equal to itself that is
no NaN. -/
structure Equates (eq : Value → Value → Bool) : Prop where
  comm : ∀ v w, eq v w = eq w v
  trans : ∀ {u v w}, eq u v = true → eq v w = true → eq u w = true
  self : ∀ {v}, v.isNaN = false → eq v v = true

/-- What `same` looks at in a value that is no float: an overlay is known by its number. -/
def identity : Value → Value
  | overlay i _ _ => overlay i null null
  | v => v

theorem same_iff {v w : Value} :
    same v w = true ↔ (∃ x y, v = float x ∧ w = float y ∧ (x == y) = true) ∨
      v.identity = w.identity ∧ ∀ x, v ≠ float x := by
  cases v <;> cases w <;> simp [same, identity]

theorem equates_same : Equates same where
  comm v w := by
    have hswap : ∀ v w, same v w = true → same w v = true := by
      intro v w h
      rcases same_iff.mp h with ⟨x, y, rfl, rfl, hxy⟩ | ⟨hid, hne⟩
      · rw [Binary64.beq_comm] at hxy
        exact hxy
      · refine same_iff.mpr (.inr ⟨hid.symm, ?_⟩)
        rintro x rfl
        cases v <;> first | exact hne _ rfl | cases hid
    rw [Bool.eq_iff_iff]
    exact ⟨hswap v w, hswap w v⟩
  trans := by
    intro u v w huv hvw
    rcases same_iff.mp huv with ⟨x, y, rfl, rfl, hxy⟩ | ⟨hid, hne⟩
    · rcases same_iff.mp hvw with ⟨_, z, ⟨⟩, rfl, hyz⟩ | ⟨_, hnone⟩
      · exact Binary64.beq_trans hxy hyz
      · exact absurd rfl (hnone y)
    · rcases same_iff.mp hvw with ⟨x, _, rfl, rfl, _⟩ | ⟨hid', _⟩
      · cases u <;> first | exact absurd rfl (hne _) | cases hid
      · exact same_iff.mpr (.inr ⟨hid.trans hid', hne⟩)
  self := by
    intro v hv
    cases v with
    | float x => exact Binary64.beq_self_of_isNaN hv
    | _ => exact same_iff.mpr (.inr ⟨rfl, by simp⟩)

/-! ## strict and loose equality -/

variable {v w : Value}

theorem strictEquals_of_same (h : same v w = true) : strictEquals v w = true := by
  cases v <;> cases w <;> first | exact h | cases h

theorem looseEquals_of_same (h : same v w = true) : looseEquals v w = true := by
  cases v <;> cases w <;> first | exact h | cases h

/-- Beyond identity, an integer is strictly equal to the float nearest to it. -/
theorem strictEquals_cases (v w : Value) :
    (∃ a y, v = int a ∧ w = float y) ∨ (∃ x b, v = float x ∧ w = int b) ∨
      strictEquals v w = same v w ∧ strictEquals w v = same w v := by
  cases v with
  | int a =>
    cases w with
    | float y => exact .inl ⟨a, y, rfl, rfl⟩
    | _ => exact .inr (.inr ⟨rfl, rfl⟩)
  | float x =>
    cases w with
    | int b => exact .inr (.inl ⟨x, b, rfl, rfl⟩)
    | _ => exact .inr (.inr ⟨rfl, rfl⟩)
  | _ => cases w <;> exact .inr (.inr ⟨rfl, rfl⟩)

theorem strictEquals_comm (v w : Value) : strictEquals v w = strictEquals w v := by
  obtain ⟨a, y, rfl, rfl⟩ | ⟨x, b, rfl, rfl⟩ | ⟨hvw, hwv⟩ := strictEquals_cases v w
  · rfl
  · rfl
  · rw [hvw, hwv, equates_same.comm]

/-- A value that is no number is loosely equal to what it is the same as. -/
theorem looseEquals_of_no_number (h : v.looseNumber? = none ∨ w.looseNumber? = none) :
    looseEquals v w = same v w := by
  cases v <;> cases w <;>
    first | rfl | simp_all [looseEquals, isShared, same, looseNumber?, number?]

theorem looseEquals_comm (v w : Value) : looseEquals v w = looseEquals w v := by
  cases hv : v.looseNumber? with
  | none =>
    rw [looseEquals_of_no_number (.inl hv), looseEquals_of_no_number (.inr hv), equates_same.comm]
  | some a =>
    cases hw : w.looseNumber? with
    | none =>
      rw [looseEquals_of_no_number (.inr hw), looseEquals_of_no_number (.inl hw),
        equates_same.comm]
    | some b =>
      obtain ⟨s, t, rfl, rfl⟩ | ⟨m, n, rfl, rfl⟩ | ⟨hvia, hvia'⟩ := pair_cases v w
      · exact BEq.comm
      · exact BEq.comm
      · rw [looseEquals_viaNumbers hvia hv hw, looseEquals_viaNumbers hvia' hw hv,
          Binary64.beq_comm]

theorem looseEquals_of_strictEquals (h : strictEquals v w = true) : looseEquals v w = true := by
  obtain ⟨a, y, rfl, rfl⟩ | ⟨x, b, rfl, rfl⟩ | ⟨hvw, _⟩ := strictEquals_cases v w
  · exact h
  · rw [looseEquals_comm]
    exact h
  · rw [hvw] at h
    exact looseEquals_of_same h

end Value

/-! ## contents -/

section
variable {α : Type} {f g : α → α → Bool}

theorem isEqv_congr {xs ys : List α} (h : ∀ a ∈ xs, ∀ b, f a b = g a b) :
    xs.isEqv ys f = xs.isEqv ys g := by
  induction xs generalizing ys with
  | nil => cases ys <;> rfl
  | cons x xs ih =>
    cases ys with
    | nil => rfl
    | cons y ys =>
      rw [List.isEqv, List.isEqv, h x List.mem_cons_self,
        ih fun a ha => h a (List.mem_cons_of_mem x ha)]

theorem isEqv_comm (h : ∀ a b, f a b = f b a) (xs ys : List α) :
    xs.isEqv ys f = ys.isEqv xs f := by
  induction xs generalizing ys with
  | nil => cases ys <;> rfl
  | cons x xs ih =>
    cases ys with
    | nil => rfl
    | cons y ys => rw [List.isEqv, List.isEqv, h, ih]

theorem isEqv_trans (h : ∀ a b c, f a b = true → f b c = true → f a c = true)
    {xs ys zs : List α} (hxy : xs.isEqv ys f = true) (hyz : ys.isEqv zs f = true) :
    xs.isEqv zs f = true := by
  induction xs generalizing ys zs with
  | nil =>
    cases ys with
    | nil => exact hyz
    | cons y ys => cases hxy
  | cons x xs ih =>
    cases ys with
    | nil => cases hxy
    | cons y ys =>
      cases zs with
      | nil => cases hyz
      | cons z zs =>
        rw [List.isEqv, Bool.and_eq_true] at hxy hyz ⊢
        exact ⟨h x y z hxy.1 hyz.1, ih hxy.2 hyz.2⟩

end

namespace Heap

open Value (same)

/-- Two arrays hold equal items in the same places, or two objects equal contents under the same
names. -/
def holdsEqual (h : Heap) (eq : Value → Value → Bool) : Value → Value → Bool
  | .array r, .array s => (h.items r).toList.isEqv (h.items s).toList eq
  | .object r, .object s => (h.fields r).isEqv (h.fields s) fun a b => a.1 == b.1 && eq a.2 b.2
  | _, _ => false

variable {P : Value → Prop} {h : Heap} {u v w : Value} {eq eq' : Value → Value → Bool}

theorem equalsTo_succ (h : Heap) (n : Nat) (v w : Value) :
    h.equalsTo (n + 1) v w = (same v w || h.holdsEqual (h.equalsTo n) v w) := by
  cases v <;> cases w <;> first | rfl | exact (Bool.or_false _).symm

theorem isContainer_of_holdsEqual (hvw : h.holdsEqual eq v w = true) : v.isContainer = true := by
  cases v with
  | array r => rfl
  | object r => rfl
  | _ => cases hvw

theorem holdsEqual_congr (heq : ∀ a, h.Contains v a → ∀ b, eq a b = eq' a b) :
    h.holdsEqual eq v w = h.holdsEqual eq' v w := by
  cases v with
  | array r =>
    cases w with
    | array s => exact isEqv_congr fun a ha b => heq a (.item ha) b
    | _ => rfl
  | object r =>
    cases w with
    | object s =>
      refine isEqv_congr fun p hp q => ?_
      rw [heq p.2 (.field hp)]
    | _ => rfl
  | _ => rfl

theorem holdsEqual_comm (heq : ∀ a b, eq a b = eq b a) (v w : Value) :
    h.holdsEqual eq v w = h.holdsEqual eq w v := by
  cases v with
  | array r =>
    cases w with
    | array s => exact isEqv_comm heq _ _
    | _ => rfl
  | object r =>
    cases w with
    | object s =>
      refine isEqv_comm (fun p q => ?_) _ _
      rw [heq, BEq.comm]
    | _ => rfl
  | _ => cases w <;> rfl

theorem holdsEqual_trans (heq : ∀ {a b c}, eq a b = true → eq b c = true → eq a c = true)
    (huv : h.holdsEqual eq u v = true) (hvw : h.holdsEqual eq v w = true) :
    h.holdsEqual eq u w = true := by
  cases v with
  | array s =>
    cases u with
    | array r =>
      cases w with
      | array t => exact isEqv_trans (f := eq) (fun a b c => heq) huv hvw
      | _ => cases hvw
    | _ => cases huv
  | object s =>
    cases u with
    | object r =>
      cases w with
      | object t =>
        refine isEqv_trans (fun a b c hab hbc => ?_) huv hvw
        rw [Bool.and_eq_true, beq_iff_eq] at hab hbc ⊢
        exact ⟨hab.1.trans hbc.1, heq hab.2 hbc.2⟩
      | _ => cases hvw
    | _ => cases huv
  | _ => cases hvw

/-- At every depth, equality of contents has the laws of identity. -/
theorem equates_equalsTo (h : Heap) (n : Nat) : Value.Equates (h.equalsTo n) := by
  have hsame := Value.equates_same
  induction n with
  | zero =>
    have hzero : h.equalsTo 0 = same := by
      funext v w
      rfl
    rw [hzero]
    exact hsame
  | succ n ih =>
    refine ⟨fun v w => ?_, fun {u v w} huv hvw => ?_, fun {v} hv => ?_⟩
    · rw [equalsTo_succ, equalsTo_succ, hsame.comm, holdsEqual_comm ih.comm]
    · -- a container is the same as itself only, so that identity on one side changes nothing
      rw [equalsTo_succ, Bool.or_eq_true] at huv hvw ⊢
      rcases huv with huv | huv
      · rcases hvw with hvw | hvw
        · exact .inl (hsame.trans huv hvw)
        · rw [hsame.comm, Value.same_eq_true_iff (isContainer_of_holdsEqual hvw)] at huv
          rw [huv]
          exact .inr hvw
      · rcases hvw with hvw | hvw
        · rw [holdsEqual_comm ih.comm] at huv
          rw [Value.same_eq_true_iff (isContainer_of_holdsEqual huv)] at hvw
          rw [hvw, holdsEqual_comm ih.comm]
          exact .inr huv
        · exact .inr (holdsEqual_trans ih.trans huv hvw)
    · rw [equalsTo_succ, hsame.self hv]
      rfl

theorem equates_equals (h : Heap) : Value.Equates h.equals := h.equates_equalsTo _

theorem equals_of_same (hvw : same v w = true) : h.equals v w = true := by
  rw [equals, equalsTo_succ, hvw]
  rfl

/-! ## acyclic values -/

/-- How deep a comparison may go makes no difference, as long as there is room for the containers
that are not above. -/
theorem equalsTo_eq (hv : h.Data P v) (w : Value) {n n' : Nat} {path path' : List Value}
    (hpath : h.Above v path) (hpath' : h.Above v path')
    (hn : h.arrays.size + h.objects.size < n + path.length)
    (hn' : h.arrays.size + h.objects.size < n' + path'.length) :
    h.equalsTo n v w = h.equalsTo n' v w := by
  induction v, hv using Data.contents_induction generalizing w n n' path path' with
  | step v hv ih =>
    obtain ⟨m, rfl, hm⟩ := hpath.exists_succ hn
    obtain ⟨m', rfl, hm'⟩ := hpath'.exists_succ hn'
    rw [equalsTo_succ, equalsTo_succ]
    refine congrArg _ (holdsEqual_congr fun a ha b => ?_)
    exact ih a ha b (hpath.cons hv ha) (hpath'.cons hv ha) hm hm'

/-- **Acyclic values are equal if they are the same or hold equal contents**, which are compared in
the same way. -/
theorem equals_eq (hv : h.Acyclic v) (w : Value) :
    h.equals v w = (same v w || h.holdsEqual h.equals v w) := by
  have hdata : h.Data (fun _ => True) v := data_iff.mpr ⟨hv, fun _ _ _ => trivial⟩
  have harrays := Nat.le_mul_self h.arrays.size
  have hobjects := Nat.le_mul_self h.objects.size
  have htop : h.Above v [] := .nil v
  rw [equals, equalsTo_succ]
  refine congrArg _ (holdsEqual_congr fun a ha b => ?_)
  refine equalsTo_eq (hdata.of_contains ha) b (htop.cons hdata ha) (.nil a) ?_ ?_
  · rw [pairs, List.length_singleton]
    omega
  · rw [pairs, List.length_nil]
    omega

end Heap

/-! ## places of items -/

namespace Value

/-- The item at this place of a list is strictly equal to a value. -/
def StandsAt (x : Value) (items : List Value) (i : Nat) : Prop :=
  ∃ v, items[i]? = some v ∧ v.strictEquals x = true

theorem findIdx?_strictEquals_eq_some_iff {x : Value} {items : List Value} {i : Nat} :
    items.findIdx? (·.strictEquals x) = some i ↔ IsLeast {i | x.StandsAt items i} i := by
  rw [List.findIdx?_eq_some_iff_getElem]
  constructor
  · rintro ⟨hi, heq, hleast⟩
    refine ⟨⟨items[i], List.getElem?_eq_getElem hi, heq⟩, ?_⟩
    rintro j ⟨v, hv, hstrict⟩
    by_contra hlt
    obtain ⟨hj, rfl⟩ := List.getElem?_eq_some_iff.mp hv
    exact hleast j (Nat.lt_of_not_le hlt) hstrict
  · rintro ⟨⟨v, hv, hstrict⟩, hleast⟩
    obtain ⟨hi, rfl⟩ := List.getElem?_eq_some_iff.mp hv
    refine ⟨hi, hstrict, fun j hj heq => ?_⟩
    have hle := hleast ⟨items[j], List.getElem?_eq_getElem (Nat.lt_trans hj hi), heq⟩
    omega

theorem findIdx?_strictEquals_eq_none_iff {x : Value} {items : List Value} :
    items.findIdx? (·.strictEquals x) = none ↔ ∀ i, ¬ x.StandsAt items i := by
  rw [List.findIdx?_eq_none_iff]
  constructor
  · rintro hnone i ⟨v, hv, hstrict⟩
    rw [hnone v (List.mem_of_getElem? hv)] at hstrict
    cases hstrict
  · intro hnone v hv
    rw [Bool.eq_false_iff]
    intro hstrict
    obtain ⟨i, hi⟩ := List.getElem?_of_mem hv
    exact hnone i ⟨v, hi, hstrict⟩

/-- The number is the least place of a list at which an item is strictly equal to a value, or -1 if
there is none. In a list of at most 2⁶³ items no place wraps around. -/
structure LeastPlace (x : Value) (items : List Value) (n : Int64) : Prop where
  found : ∀ i, IsLeast {i | x.StandsAt items i} i → n = Int64.ofNat i
  missing : (∀ i, ¬ x.StandsAt items i) → n = -1
  toInt_eq_iff : items.length ≤ 2 ^ 63 →
    ∀ i : Nat, n.toInt = i ↔ IsLeast {i | x.StandsAt items i} i
  eq_minus_one_iff : items.length ≤ 2 ^ 63 → (n = -1 ↔ ∀ i, ¬ x.StandsAt items i)

theorem leastPlace_some {x : Value} {items : List Value} {i : Nat}
    (hleast : IsLeast {i | x.StandsAt items i} i) : x.LeastPlace items (Int64.ofNat i) := by
  have hlt : i < items.length := by
    obtain ⟨v, hv, _⟩ := hleast.1
    exact (List.getElem?_eq_some_iff.mp hv).1
  have htoInt : items.length ≤ 2 ^ 63 → (Int64.ofNat i).toInt = i :=
    fun hsize => Int64.toInt_ofNat_of_lt (by omega)
  refine ⟨fun j hj => ?_, fun hnone => ?_, fun hsize j => ?_, fun hsize => ?_⟩
  · rw [hj.unique hleast]
  · exact absurd hleast.1 (hnone i)
  · rw [htoInt hsize, Int.natCast_inj]
    constructor
    · rintro rfl
      exact hleast
    · exact hleast.unique
  · constructor
    · intro hminus
      have hneg : (i : Int) = -1 := by rw [← htoInt hsize, hminus]; rfl
      omega
    · exact fun hnone => absurd hleast.1 (hnone i)

theorem leastPlace_none {x : Value} {items : List Value} (hnone : ∀ i, ¬ x.StandsAt items i) :
    x.LeastPlace items (-1) := by
  refine ⟨fun i hi => absurd hi.1 (hnone i), fun _ => rfl, fun _ i => ?_, fun _ => ?_⟩
  · have hneg : (-1 : Int64).toInt = -1 := rfl
    constructor
    · intro hi
      omega
    · exact fun hi => absurd hi.1 (hnone i)
  · exact ⟨fun _ => hnone, fun _ => rfl⟩

variable {W : Type}

/-- An array answers `indexOf` with the least place of the first argument. -/
theorem indexOf_array (env : Embedding W) (s : Store W) (r : Nat) (args : List Value) :
    ∃ n, (array r).callMethod env "indexOf" args s = .ok (some (int n)) s ∧
      (args.headD null).LeastPlace (s.heap.items r).toList n := by
  have hcall : (array r).callMethod env "indexOf" args s =
      .ok (some (position
        ((s.heap.items r).toList.findIdx? (·.strictEquals (args.headD null))))) s := rfl
  rw [hcall]
  cases hfound : (s.heap.items r).toList.findIdx? (·.strictEquals (args.headD null)) with
  | none => exact ⟨-1, rfl, leastPlace_none (findIdx?_strictEquals_eq_none_iff.mp hfound)⟩
  | some i =>
    exact ⟨Int64.ofNat i, rfl, leastPlace_some (findIdx?_strictEquals_eq_some_iff.mp hfound)⟩

/-- **The equalities of values are coherent.** Each is symmetric; identity implies strict equality,
which implies loose equality, and identity implies equality of contents; identity and equality of
contents are transitive, and true of every value and itself but a NaN. On acyclic values equality of
contents is identity or the same equality of all that is inside. The place of an item is the least
at which strict equality holds. -/
theorem equalities_coherent (h : Heap) :
    Equates same ∧ Equates h.equals ∧
    (∀ v w, strictEquals v w = strictEquals w v) ∧ (∀ v w, looseEquals v w = looseEquals w v) ∧
    (∀ v w, same v w = true → strictEquals v w = true) ∧
    (∀ v w, strictEquals v w = true → looseEquals v w = true) ∧
    (∀ v w, same v w = true → h.equals v w = true) ∧
    (∀ v w, h.Acyclic v → h.equals v w = (same v w || h.holdsEqual h.equals v w)) ∧
    ∀ {W : Type} (env : Embedding W) (s : Store W) (r : Nat) (args : List Value),
      ∃ n, (array r).callMethod env "indexOf" args s = .ok (some (int n)) s ∧
        (args.headD null).LeastPlace (s.heap.items r).toList n := by
  refine ⟨equates_same, h.equates_equals, strictEquals_comm, looseEquals_comm, ?_, ?_, ?_, ?_, ?_⟩
  · exact fun v w => strictEquals_of_same
  · exact fun v w => looseEquals_of_strictEquals
  · exact fun v w => Heap.equals_of_same
  · exact fun v w hv => Heap.equals_eq hv w
  · exact fun env s r args => indexOf_array env s r args

end Value

end TemplateExpr
