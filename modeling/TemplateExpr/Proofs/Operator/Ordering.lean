import TemplateExpr.Operator.Apply
import TemplateExpr.Proofs.Number.Bits

/-!
# The order of values

The relations and loose equality are computed apart. Both look at texts as texts, at integers as
integers and at everything else through numbers, and so they agree.

* `Binary64.compare_swap`, `Number.compareFloats?_eq`   the order of floats, which only a NaN lacks;
* `Value.ViaNumbers`         the pairs of values that are compared as numbers;
* `Value.order?_swap`        the order of two values seen from the other side;
* `Value.looseEquals_eq`     loose equality is the order in which neither is less;
* `Value.compare_consistent` the relations and loose equality together.
-/

namespace TemplateExpr

/-! ## floats -/

namespace Binary64

open Float.Model Float.Model.UnpackedFloat

theorem compare_swap (u v : UnpackedFloat) : u.compare v = (v.compare u).map Ordering.swap := by
  cases u with
  | notANumber => cases v <;> rfl
  | infinity s =>
    cases v with
    | infinity t => cases s <;> cases t <;> rfl
    | _ => cases s <;> rfl
  | zero s =>
    cases v with
    | infinity t | finite t => cases t <;> rfl
    | _ => rfl
  | finite s m e hm =>
    cases v with
    | infinity t => cases s <;> cases t <;> rfl
    | zero t => cases s <;> rfl
    | notANumber => cases s <;> rfl
    | finite t n d hn =>
      have hparts : (compare e d).then (compare m n) = ((compare d e).then (compare n m)).swap := by
        rw [Ordering.swap_then, ← Std.OrientedCmp.eq_swap, ← Std.OrientedCmp.eq_swap]
      cases s <;> cases t <;> simp [UnpackedFloat.compare, hparts]

theorem compare_eq_none_iff (u v : UnpackedFloat) :
    u.compare v = none ↔ u.isNaN = true ∨ v.isNaN = true := by
  cases u with
  | notANumber => simp [UnpackedFloat.compare, UnpackedFloat.isNaN]
  | infinity s => cases v <;> cases s <;> simp [UnpackedFloat.compare, UnpackedFloat.isNaN]
  | zero s =>
    cases v with
    | infinity t | finite t => cases t <;> simp [UnpackedFloat.compare, UnpackedFloat.isNaN]
    | _ => simp [UnpackedFloat.compare, UnpackedFloat.isNaN]
  | finite s m e hm =>
    cases v with
    | infinity t | finite t =>
      cases s <;> cases t <;> simp [UnpackedFloat.compare, UnpackedFloat.isNaN]
    | _ => cases s <;> simp [UnpackedFloat.compare, UnpackedFloat.isNaN]

theorem lt_iff (x y : Float) :
    x < y ↔ x.toModel.unpack.compare y.toModel.unpack = some .lt := by
  show decide ((x.toModel.unpack.compare y.toModel.unpack == some .lt) = true) = true ↔ _
  rw [decide_eq_true_iff, beq_iff_eq]

theorem beq_iff (x y : Float) :
    (x == y) = true ↔ x.toModel.unpack.compare y.toModel.unpack = some .eq := by
  show (x.toModel.unpack.compare y.toModel.unpack == some .eq) = true ↔ _
  rw [beq_iff_eq]

end Binary64

namespace Number

theorem compareFloats?_eq (x y : Float) :
    compareFloats? x y = x.toModel.unpack.compare y.toModel.unpack := by
  have hswap := Binary64.compare_swap y.toModel.unpack x.toModel.unpack
  unfold compareFloats?
  simp only [Binary64.lt_iff, Binary64.beq_iff, hswap]
  cases x.toModel.unpack.compare y.toModel.unpack with
  | none => rfl
  | some o => cases o <;> rfl

theorem compare?_swap (a b : Number) : compare? b a = (compare? a b).map Ordering.swap := by
  rw [compare?, compare?, compareFloats?_eq, compareFloats?_eq]
  exact Binary64.compare_swap _ _

theorem compare?_eq_none_iff (a b : Number) :
    compare? a b = none ↔ a.toFloat.isNaN = true ∨ b.toFloat.isNaN = true := by
  rw [compare?, compareFloats?_eq]
  exact Binary64.compare_eq_none_iff _ _

theorem beq_toFloat (a b : Number) : (a.toFloat == b.toFloat) = (compare? a b == some .eq) := by
  rw [Bool.eq_iff_iff, Binary64.beq_iff, beq_iff_eq, compare?, compareFloats?_eq]

end Number

/-! ## values -/

namespace Value

/-- The two values are compared as numbers: they are not both texts, and not both integers. -/
def ViaNumbers : Value → Value → Prop
  | str _, str _ => False
  | int _, int _ => False
  | _, _ => True

/-- One of the two numbers that the values are compared as is a NaN. -/
def MeetsNaN (v w : Value) : Prop :=
  ∃ n, (v.looseNumber? = some n ∨ w.looseNumber? = some n) ∧ n.toFloat.isNaN = true

variable {v w : Value}

theorem pair_cases (v w : Value) :
    (∃ s t, v = str s ∧ w = str t) ∨ (∃ a b, v = int a ∧ w = int b) ∨
      v.ViaNumbers w ∧ w.ViaNumbers v := by
  cases v with
  | str s =>
    cases w with
    | str t => exact .inl ⟨s, t, rfl, rfl⟩
    | _ => exact .inr (.inr ⟨trivial, trivial⟩)
  | int a =>
    cases w with
    | int b => exact .inr (.inl ⟨a, b, rfl, rfl⟩)
    | _ => exact .inr (.inr ⟨trivial, trivial⟩)
  | _ => cases w <;> exact .inr (.inr ⟨trivial, trivial⟩)

theorem order?_viaNumbers (h : v.ViaNumbers w) :
    v.order? w =
      match v.looseNumber?, w.looseNumber? with
      | some a, some b => some (Number.compare? a b)
      | _, _ => none := by
  cases v <;> cases w <;> first | rfl | exact absurd h id

/-- Seen from the other side, the order is the other way round. -/
theorem order?_swap (v w : Value) :
    w.order? v = (v.order? w).map (Option.map Ordering.swap) := by
  obtain ⟨s, t, rfl, rfl⟩ | ⟨a, b, rfl, rfl⟩ | ⟨h, hsymm⟩ := pair_cases v w
  · exact congrArg (some ∘ some) Std.OrientedOrd.eq_swap
  · exact congrArg (some ∘ some) Std.OrientedOrd.eq_swap
  · rw [order?_viaNumbers h, order?_viaNumbers hsymm]
    cases v.looseNumber? with
    | none => cases w.looseNumber? <;> rfl
    | some a =>
      cases w.looseNumber? with
      | none => rfl
      | some b => exact congrArg some (Number.compare?_swap a b)

/-- Booleans are compared as they are, and as numbers they are `0` and `1`. -/
theorem looseEquals_viaNumbers (h : v.ViaNumbers w) {a b : Number}
    (hv : v.looseNumber? = some a) (hw : w.looseNumber? = some b) :
    v.looseEquals w = (a.toFloat == b.toFloat) := by
  have hbools : ∀ c d : Bool, (c == d) = ((Number.int (if c then 1 else 0)).toFloat ==
      (Number.int (if d then 1 else 0)).toFloat) := by
    intro c d
    cases c <;> cases d <;> rfl
  cases v with
  | null | array | object | function | host | overlay => simp [looseNumber?, number?] at hv
  | bool c =>
    cases w with
    | null | array | object | function | host | overlay => simp [looseNumber?, number?] at hw
    | bool d =>
      cases hv
      cases hw
      exact hbools c d
    | _ => simp [looseEquals, isShared, hv, hw]
  | int n =>
    cases w with
    | null | array | object | function | host | overlay => simp [looseNumber?, number?] at hw
    | int m => exact absurd h id
    | _ => simp [looseEquals, isShared, hv, hw]
  | str s =>
    cases w with
    | null | array | object | function | host | overlay => simp [looseNumber?, number?] at hw
    | str t => exact absurd h id
    | _ => simp [looseEquals, isShared, hv, hw]
  | float x =>
    cases w with
    | null | array | object | function | host | overlay => simp [looseNumber?, number?] at hw
    | _ => simp [looseEquals, isShared, hv, hw]

/-- Values that are compared are loosely equal where their order says so. -/
theorem looseEquals_eq {o : Option Ordering} (h : v.order? w = some o) :
    v.looseEquals w = (o == some .eq) := by
  obtain ⟨s, t, rfl, rfl⟩ | ⟨a, b, rfl, rfl⟩ | ⟨hnumbers, _⟩ := pair_cases v w
  · obtain rfl := Option.some.inj h
    show (s == t) = _
    rw [Bool.eq_iff_iff, beq_iff_eq, beq_iff_eq, Option.some.injEq,
      Std.LawfulEqCmp.compare_eq_iff_eq]
  · obtain rfl := Option.some.inj h
    show (a == b) = _
    rw [Bool.eq_iff_iff, beq_iff_eq, beq_iff_eq, Option.some.injEq,
      Std.LawfulEqCmp.compare_eq_iff_eq, Int64.toInt_inj]
  · rw [order?_viaNumbers hnumbers] at h
    cases hv : v.looseNumber? with
    | none => simp [hv] at h
    | some a =>
      cases hw : w.looseNumber? with
      | none => simp [hv, hw] at h
      | some b =>
        simp only [hv, hw, Option.some.injEq] at h
        rw [looseEquals_viaNumbers hnumbers hv hw, Number.beq_toFloat, h]

/-- Values that can be compared have an order, unless one of the numbers they are compared as is a
NaN. -/
theorem order?_eq_none_iff {o : Option Ordering} (h : v.order? w = some o) :
    o = none ↔ v.ViaNumbers w ∧ v.MeetsNaN w := by
  obtain ⟨s, t, rfl, rfl⟩ | ⟨a, b, rfl, rfl⟩ | ⟨hnumbers, _⟩ := pair_cases v w
  · obtain rfl := Option.some.inj h
    simp [ViaNumbers]
  · obtain rfl := Option.some.inj h
    simp [ViaNumbers]
  · rw [order?_viaNumbers hnumbers] at h
    cases hv : v.looseNumber? with
    | none => simp [hv] at h
    | some a =>
      cases hw : w.looseNumber? with
      | none => simp [hv, hw] at h
      | some b =>
        simp only [hv, hw, Option.some.injEq] at h
        rw [← h, Number.compare?_eq_none_iff, MeetsNaN, hv, hw]
        simp [hnumbers, or_and_right, exists_or]

end Value

/-- The relation between the operands the other way round. -/
def RelOp.swap : RelOp → RelOp
  | less => greater
  | greater => less
  | lessEqual => greaterEqual
  | greaterEqual => lessEqual

theorem RelOp.admits_swap (op : RelOp) (o : Ordering) : op.admits o.swap = op.swap.admits o := by
  cases op <;> cases o <;> rfl

namespace Value

section
variable {v w : Value} (hv : v.isNull = false) (hw : w.isNull = false) (op : RelOp)
include hv hw

theorem compare_of_none (h : v.order? w = none) :
    compare (.relation op) v w =
      .error (.typeFault (.cannotCompare (.relation op) v.kind w.kind)) := by
  rw [compare, hv, hw, h]
  rfl

theorem compare_of_order {o : Ordering} (h : v.order? w = some (some o)) :
    compare (.relation op) v w = .ok (bool (op.admits o)) := by
  rw [compare, hv, hw, h]
  rfl

theorem compare_of_nan (h : v.order? w = some none) :
    compare (.relation op) v w = .ok (bool false) := by
  rw [compare, hv, hw, h]
  rfl

/-- Whether two values can be compared depends neither on the relation nor on their sides. -/
theorem compare_eq_error_iff :
    (∃ fault, compare (.relation op) v w = .error fault) ↔ v.order? w = none := by
  cases h : v.order? w with
  | none => exact ⟨fun _ => rfl, fun _ => ⟨_, compare_of_none hv hw op h⟩⟩
  | some o =>
    cases o with
    | none => simp [compare_of_nan hv hw op h]
    | some o => simp [compare_of_order hv hw op h]

theorem exists_order {answer : Value} (h : compare (.relation op) v w = .ok answer) :
    ∃ o, v.order? w = some o := by
  apply Option.ne_none_iff_exists'.mp
  rw [Ne, ← compare_eq_error_iff hv hw op, h]
  rintro ⟨_, ⟨⟩⟩

end

/-- Of two values that can be compared, one is less, or they are loosely equal, or the other is
less, and only one of these; `<=` and `>=` are the negations of `>` and `<`, and the other way round
each relation is its counterpart. Values that cannot be compared cannot by any relation from any
side. Beside a NaN no relation holds, and neither does equality. -/
theorem compare_consistent (v w : Value) (hv : v.isNull = false) (hw : w.isNull = false) :
    (∀ op answer, compare (.relation op) v w = .ok answer → ¬ (v.ViaNumbers w ∧ v.MeetsNaN w) →
      ∃ less greater : Bool,
        compare (.relation .less) v w = .ok (bool less) ∧
        compare (.relation .greater) v w = .ok (bool greater) ∧
        [less, v.looseEquals w, greater].count true = 1 ∧
        compare (.relation .lessEqual) v w = .ok (bool !greater) ∧
        compare (.relation .greaterEqual) v w = .ok (bool !less) ∧
        ∀ op', compare (.relation op') w v = compare (.relation op'.swap) v w) ∧
    (∀ op fault, compare (.relation op) v w = .error fault → ∀ op',
      (∃ fault', compare (.relation op') v w = .error fault') ∧
      ∃ fault', compare (.relation op') w v = .error fault') ∧
    ∀ op answer, compare (.relation op) v w = .ok answer → v.ViaNumbers w → v.MeetsNaN w →
      (∀ op', compare (.relation op') v w = .ok (bool false)) ∧ v.looseEquals w = false := by
  refine ⟨fun op answer h hnan => ?_, fun op fault h op' => ?_, fun op answer h hvia hnan => ?_⟩
  · obtain ⟨o, ho⟩ := exists_order hv hw op h
    obtain ⟨o, rfl⟩ := Option.ne_none_iff_exists'.mp (mt (order?_eq_none_iff ho).mp hnan)
    have hback : w.order? v = some (some o.swap) := by
      rw [order?_swap, ho]
      rfl
    refine ⟨RelOp.less.admits o, RelOp.greater.admits o, compare_of_order hv hw _ ho,
      compare_of_order hv hw _ ho, ?_, ?_, ?_, fun op' => ?_⟩
    · rw [looseEquals_eq ho]
      cases o <;> rfl
    · rw [compare_of_order hv hw _ ho]
      cases o <;> rfl
    · rw [compare_of_order hv hw _ ho]
      cases o <;> rfl
    · rw [compare_of_order hw hv _ hback, compare_of_order hv hw _ ho, RelOp.admits_swap]
  · have ho : v.order? w = none := (compare_eq_error_iff hv hw op).mp ⟨fault, h⟩
    have hback : w.order? v = none := by
      rw [order?_swap, ho]
      rfl
    exact ⟨(compare_eq_error_iff hv hw op').mpr ho, (compare_eq_error_iff hw hv op').mpr hback⟩
  · obtain ⟨o, ho⟩ := exists_order hv hw op h
    obtain rfl := (order?_eq_none_iff ho).mpr ⟨hvia, hnan⟩
    refine ⟨fun op' => compare_of_nan hv hw op' ho, ?_⟩
    rw [looseEquals_eq ho]
    rfl

/-- As a number, the text `10` is above the integer `9`; as texts they would be the other way. -/
theorem compare_consistent_digits :
    (str "10").ViaNumbers (int 9) ∧ ¬ (str "10").MeetsNaN (int 9) ∧
    compare (.relation .greater) (str "10") (int 9) = .ok (bool true) ∧
    compare (.relation .less) (int 9) (str "10") = .ok (bool true) ∧
    (str "10").looseEquals (int 9) = false := by
  have hten : (str "10").looseNumber?.map (·.toFloat.isNaN) = some false := rfl
  have hgreater : compare (.relation .greater) (str "10") (int 9) = .ok (bool true) := rfl
  have hnan : ¬ (str "10").MeetsNaN (int 9) := by
    rintro ⟨n, hn | hn, hisNaN⟩
    · rw [hn, Option.map_some, hisNaN] at hten
      cases hten
    · cases hn
      cases hisNaN
  obtain ⟨less, greater, _, hgreater', hone, _, _, hswap⟩ :=
    (compare_consistent (str "10") (int 9) rfl rfl).1 .greater _ hgreater fun h => hnan h.2
  obtain rfl : greater = true := by
    rw [hgreater] at hgreater'
    cases hgreater'
    rfl
  refine ⟨trivial, hnan, hgreater, (hswap .less).trans hgreater, ?_⟩
  revert hone
  cases less <;> cases (str "10").looseEquals (int 9) <;> simp

end Value

end TemplateExpr
