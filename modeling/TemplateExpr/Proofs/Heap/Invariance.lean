import TemplateExpr.Operator.Apply
import TemplateExpr.Proofs.Heap.Correspondence

/-!
# What does not depend on references

Corresponding values are told apart by no operation: they have the same truth, the same numbers and
the same text, and they equal the same values.

* `Correspondence.text_eq`    the texts of corresponding values;
* `Correspondence.Reads`      what is read through references that answer to each other;
* `Correspondence.same_eq`    identity, and the equalities above it;
* `Correspondence.answers_apply`   the operators, with the errors they end with.
-/

namespace TemplateExpr

/-! ## texts -/

/-- The text of an item of an array. -/
def Snapshot.itemText : Snapshot → String
  | .leaf .null => ""
  | s => s.text

theorem Snapshot.itemTexts_eq_map (items : List Snapshot) :
    itemTexts items = items.map itemText := by
  induction items with
  | nil => rw [itemTexts]; rfl
  | cons item items ih =>
    unfold itemTexts
    rw [ih, List.map_cons]
    congr 1
    cases item with
    | leaf v => cases v <;> rfl
    | _ => rfl

namespace Heap

theorem unfold_arrays_array (h : Heap) (n : Nat) (path : List Value) (r : Nat) :
    h.unfold .arrays (n + 1) path (.array r) =
      match path.findIdx? (Value.same (.array r)) with
      | some level => .cycle (level + 1) (.array r)
      | none => .array r ((h.items r).toList.map (h.unfold .arrays n (.array r :: path))) := by
  rewrite [Heap.unfold]
  cases path.findIdx? (Value.same (.array r)) <;> rfl

theorem itemText_unfold (h : Heap) (n : Nat) (path : List Value) (v : Value) :
    (h.unfold .arrays (n + 1) path v).itemText =
      if v.isNull then "" else (h.unfold .arrays (n + 1) path v).text := by
  cases v with
  | array r =>
    rw [unfold_arrays_array]
    cases path.findIdx? (Value.same (.array r)) <;> rfl
  | _ => rfl

end Heap

namespace Correspondence

variable {start : Heap} {ρ : Correspondence start} {h h' : Heap}

section
variable {v v' : Value} (hv : ρ.Corresponds v v')
include hv

theorem isNull_eq : v.isNull = v'.isNull := by
  cases hv <;> rfl

theorem isTruthy_eq : v.isTruthy = v'.isTruthy := by
  cases hv <;> rfl

theorem kind_eq : v.kind = v'.kind := by
  cases hv <;> rfl

theorem asInt?_eq : v.asInt? = v'.asInt? := by
  cases hv <;> rfl

theorem number?_eq : v.number? = v'.number? := by
  cases hv <;> rfl

end

/-- An array is found on a path where the one that answers to it is. -/
theorem findIdx?_eq {refs refs' : List Nat} (hrefs : List.Forall₂ ρ.arrays refs refs') {r r' : Nat}
    (hr : ρ.arrays r r') :
    (refs.map Value.array).findIdx? (Value.same (.array r)) =
      (refs'.map Value.array).findIdx? (Value.same (.array r')) := by
  induction hrefs with
  | nil => rfl
  | @cons a a' refs refs' ha _ ih =>
    have hsame : Value.same (.array r) (.array a) = Value.same (.array r') (.array a') := by
      show (r == a) = (r' == a')
      rw [Bool.eq_iff_iff, beq_iff_eq, beq_iff_eq]
      exact ρ.arrays_unique hr ha
    rw [List.map_cons, List.map_cons, List.findIdx?_cons, List.findIdx?_cons, hsame, ih]

theorem nodup_cons_of_findIdx? {refs : List Nat} {r : Nat} (hnodup : refs.Nodup)
    (h : (refs.map Value.array).findIdx? (Value.same (.array r)) = none) : (r :: refs).Nodup := by
  refine List.nodup_cons.mpr ⟨fun hmem => ?_, hnodup⟩
  have := List.findIdx?_eq_none_iff.mp h (.array r) (List.mem_map_of_mem hmem)
  simp [Value.same] at this

/-- No path through different arrays is longer than their number. -/
theorem length_le_of_nodup {refs : List Nat} (hnodup : refs.Nodup) {n : Nat}
    (hlt : ∀ r ∈ refs, r < n) : refs.length ≤ n := by
  have hsub : refs ⊆ List.range n := fun r hr => List.mem_range.mpr (hlt r hr)
  have hle := hnodup.length_le_of_subset hsub
  rwa [List.length_range] at hle

theorem lt_of_forall₂ (hh : ρ.Heaps h h') {refs refs' : List Nat}
    (hrefs : List.Forall₂ ρ.arrays refs refs') :
    (∀ r ∈ refs, r < h.arrays.size) ∧ ∀ r ∈ refs', r < h'.arrays.size := by
  induction hrefs with
  | nil => simp
  | cons hr _ ih =>
    have hlt := hh.arrays_lt hr
    exact ⟨List.forall_mem_cons.mpr ⟨hlt.1, ih.1⟩, List.forall_mem_cons.mpr ⟨hlt.2, ih.2⟩⟩

theorem map_eq_of_forall₂ {α : Type} {f f' : Value → α}
    (hf : ∀ v v', ρ.Corresponds v v' → f v = f' v') {vs vs' : List Value}
    (hvs : List.Forall₂ ρ.Corresponds vs vs') : vs.map f = vs'.map f' := by
  induction hvs with
  | nil => rfl
  | cons hv _ ih => rw [List.map_cons, List.map_cons, hf _ _ hv, ih]

/-- Below corresponding paths, and as long as the depth is enough for all arrays that are not on
the path, the texts are the same. How deep the unfolding may go differs between the heaps. -/
theorem text_unfold (hh : ρ.Heaps h h') {n n' : Nat} {refs refs' : List Nat} {v v' : Value}
    (hrefs : List.Forall₂ ρ.arrays refs refs') (hnodup : refs.Nodup) (hnodup' : refs'.Nodup)
    (hn : h.arrays.size < n + refs.length) (hn' : h'.arrays.size < n' + refs'.length)
    (hv : ρ.Corresponds v v') :
    (h.unfold .arrays n (refs.map .array) v).text =
      (h'.unfold .arrays n' (refs'.map .array) v').text := by
  induction n generalizing n' refs refs' v v' with
  | zero =>
    have := length_le_of_nodup hnodup (lt_of_forall₂ hh hrefs).1
    omega
  | succ n ih =>
    cases n' with
    | zero =>
      have := length_le_of_nodup hnodup' (lt_of_forall₂ hh hrefs).2
      omega
    | succ n' =>
      cases hv with
      | @array r r' hr =>
        rw [Heap.unfold_arrays_array, Heap.unfold_arrays_array, findIdx?_eq hrefs hr]
        cases hfind : (refs'.map Value.array).findIdx? (Value.same (.array r')) with
        | some level => rfl
        | none =>
          have hcons := nodup_cons_of_findIdx? hnodup ((findIdx?_eq hrefs hr).trans hfind)
          have hcons' := nodup_cons_of_findIdx? hnodup' hfind
          have hpath := List.Forall₂.cons hr hrefs
          have hdepth : h.arrays.size < n + (r :: refs).length := by
            rw [List.length_cons]
            omega
          have hdepth' : h'.arrays.size < n' + (r' :: refs').length := by
            rw [List.length_cons]
            omega
          have hitem : ∀ w w', ρ.Corresponds w w' →
              (h.unfold .arrays n ((r :: refs).map .array) w).itemText =
                (h'.unfold .arrays n' ((r' :: refs').map .array) w').itemText := by
            intro w w' hw
            have htext := ih hpath hcons hcons' hdepth hdepth' hw
            have hle := length_le_of_nodup hcons (lt_of_forall₂ hh hpath).1
            have hle' := length_le_of_nodup hcons' (lt_of_forall₂ hh hpath).2
            obtain ⟨k, rfl⟩ : ∃ k, n = k + 1 := ⟨n - 1, by omega⟩
            obtain ⟨k', rfl⟩ : ∃ k', n' = k' + 1 := ⟨n' - 1, by omega⟩
            rw [Heap.itemText_unfold, Heap.itemText_unfold, htext, isNull_eq hw]
          show (Snapshot.array r _).text = (Snapshot.array r' _).text
          rw [Snapshot.text, Snapshot.text, Snapshot.itemTexts_eq_map, Snapshot.itemTexts_eq_map,
            List.map_map, List.map_map]
          congr 1
          exact map_eq_of_forall₂ hitem (hh.items hr)
      | _ => rfl

/-- Corresponding values have one text. -/
theorem text_eq (hh : ρ.Heaps h h') {v v' : Value} (hv : ρ.Corresponds v v') :
    h.text v = h'.text v' := by
  have hpath : List.Forall₂ ρ.arrays [] [] := .nil
  refine text_unfold hh hpath List.nodup_nil List.nodup_nil ?_ ?_ hv
  · simp only [List.length_nil]
    omega
  · simp only [List.length_nil]
    omega

/-- What is read through references that answer to each other corresponds, and corresponding values
have one text. -/
structure Reads (ρ : Correspondence start) (h h' : Heap) : Prop where
  items : ∀ {r r'}, ρ.arrays r r' →
    List.Forall₂ ρ.Corresponds (h.items r).toList (h'.items r').toList
  fields : ∀ {r r'}, ρ.objects r r' → List.Forall₂ ρ.Pairs (h.fields r) (h'.fields r')
  text : ∀ {v v'}, ρ.Corresponds v v' → h.text v = h'.text v'

theorem Heaps.reads (hh : ρ.Heaps h h') : ρ.Reads h h' := ⟨hh.items, hh.fields, text_eq hh⟩

/-! ## equalities -/

section
variable {v v' w w' : Value} (hv : ρ.Corresponds v v') (hw : ρ.Corresponds w w')
include hv hw

theorem same_eq : v.same w = v'.same w' := by
  cases hv with
  | array hr =>
    cases hw with
    | array hs =>
      rw [Value.same, Value.same, Bool.eq_iff_iff, beq_iff_eq, beq_iff_eq]
      exact ρ.arrays_unique hr hs
    | _ => rfl
  | object hr =>
    cases hw with
    | object hs =>
      rw [Value.same, Value.same, Bool.eq_iff_iff, beq_iff_eq, beq_iff_eq]
      exact ρ.objects_unique hr hs
    | _ => rfl
  | _ => cases hw <;> rfl

theorem strictEquals_eq : v.strictEquals w = v'.strictEquals w' := by
  have hsame := same_eq hv hw
  cases hv <;> cases hw <;> first | rfl | exact hsame

theorem looseEquals_eq : v.looseEquals w = v'.looseEquals w' := by
  have hsame := same_eq hv hw
  cases hv <;> cases hw <;> first | rfl | exact hsame

theorem order?_eq : v.order? w = v'.order? w' := by
  cases hv <;> cases hw <;> rfl

/-! ## operators -/

theorem compare_eq (op : BinOp) : Value.compare op v w = Value.compare op v' w' := by
  rw [Value.compare, Value.compare, isNull_eq hv, isNull_eq hw, order?_eq hv hw, kind_eq hv,
    kind_eq hw]

theorem arithmetic_eq (op : ArithOp) :
    Value.arithmetic op v w = Value.arithmetic op v' w' := by
  rw [Value.arithmetic, Value.arithmetic, number?_eq hv, number?_eq hw, kind_eq hv, kind_eq hw]

end

/-- Both have values, which correspond, or both end with the same error. -/
inductive Answers (ρ : Correspondence start) :
    Except EvalError Value → Except EvalError Value → Prop where
  | ok {v v'} : ρ.Corresponds v v' → Answers ρ (.ok v) (.ok v')
  | error (e) : Answers ρ (.error e) (.error e)

/-- If there is a value, the other is one that corresponds to it. -/
def Computes (ρ : Correspondence start) (x y : Except EvalError Value) : Prop :=
  ∀ v, x = .ok v → ∃ v', y = .ok v' ∧ ρ.Corresponds v v'

theorem Answers.computes {x y : Except EvalError Value} (h : ρ.Answers x y) : ρ.Computes x y := by
  rintro v rfl
  cases h with
  | ok hv => exact ⟨_, rfl, hv⟩

theorem corresponds_ofNumber (n : Number) : ρ.Corresponds (.ofNumber n) (.ofNumber n) := by
  cases n with
  | int n => exact .int n
  | float x => exact .float x

section
variable {v v' w w' : Value} (hv : ρ.Corresponds v v') (hw : ρ.Corresponds w w')
include hv hw

theorem answers_arithmetic (op : ArithOp) :
    ρ.Answers (Value.arithmetic op v w) (Value.arithmetic op v' w') := by
  rw [← arithmetic_eq hv hw]
  unfold Value.arithmetic
  split
  · exact .ok (corresponds_ofNumber _)
  · exact .error _

theorem answers_add (hh : ρ.Reads h h') : ρ.Answers (v.add h w) (v'.add h' w') := by
  have hleft := hv
  have hright := hw
  have htext := hh.text hv
  have htext' := hh.text hw
  have harith := answers_arithmetic hv hw .add
  cases hv with
  | null =>
    cases hw with
    | null => exact .ok (.int 0)
    | _ => exact .ok hright
  | str s =>
    cases hw with
    | null => exact .ok hleft
    | _ =>
      simp only [Value.add, htext']
      exact .ok (.str _)
  | _ =>
    cases hw with
    | null => exact .ok hleft
    | str s =>
      simp only [Value.add, htext]
      exact .ok (.str _)
    | _ => exact harith

theorem answers_subtract : ρ.Answers (v.subtract w) (v'.subtract w') := by
  have hleft := hv
  have hnegate := answers_arithmetic (.int 0) hw .subtract
  have harith := answers_arithmetic hv hw .subtract
  cases hv with
  | null =>
    cases hw with
    | null => exact .ok (.int 0)
    | _ => exact hnegate
  | _ =>
    cases hw with
    | null => exact .ok hleft
    | _ => exact harith

theorem answers_compare (op : BinOp) :
    ρ.Answers (Value.compare op v w) (Value.compare op v' w') := by
  rw [← compare_eq hv hw op]
  unfold Value.compare
  split
  · exact .ok .null
  · split
    · exact .ok (.bool _)
    · exact .ok (.bool _)
    · exact .error _

/-- Operators take corresponding operands to corresponding values, or fail on both. -/
theorem answers_apply (hh : ρ.Reads h h') (op : BinOp) :
    ρ.Answers (op.apply h v w) (op.apply h' v' w') := by
  cases op with
  | relation op => exact answers_compare hv hw _
  | equal =>
    rw [BinOp.apply, BinOp.apply, looseEquals_eq hv hw]
    exact .ok (.bool _)
  | notEqual =>
    rw [BinOp.apply, BinOp.apply, looseEquals_eq hv hw]
    exact .ok (.bool _)
  | and =>
    rw [BinOp.apply, BinOp.apply, isTruthy_eq hv, isTruthy_eq hw]
    exact .ok (.bool _)
  | or =>
    rw [BinOp.apply, BinOp.apply, isTruthy_eq hv, isTruthy_eq hw]
    exact .ok (.bool _)
  | arith op =>
    have hnull : ∀ op, ρ.Answers
        (if v.isNull || w.isNull then .ok .null else Value.arithmetic op v w)
        (if v'.isNull || w'.isNull then .ok .null else Value.arithmetic op v' w') := by
      intro op
      rw [isNull_eq hv, isNull_eq hw]
      split
      · exact .ok .null
      · exact answers_arithmetic hv hw op
    cases op with
    | add => exact answers_add hv hw hh
    | subtract => exact answers_subtract hv hw
    | _ => exact hnull _

theorem computes_apply (hh : ρ.Heaps h h') (op : BinOp) :
    ρ.Computes (op.apply h v w) (op.apply h' v' w') :=
  (answers_apply hv hw hh.reads op).computes

end

/-! ## fields -/

theorem pairs_insert {fs fs' : Fields Value} (hfs : List.Forall₂ ρ.Pairs fs fs') (name : String)
    {v v' : Value} (hv : ρ.Corresponds v v') :
    List.Forall₂ ρ.Pairs (fs.insert name v) (fs'.insert name v') := by
  induction hfs with
  | nil => exact .cons ⟨rfl, hv⟩ .nil
  | @cons p p' fs fs' hp hfs ih =>
    obtain ⟨key, w⟩ := p
    obtain ⟨key', w'⟩ := p'
    obtain ⟨rfl, hw⟩ := hp
    rw [Fields.insert, Fields.insert]
    split
    · exact .cons ⟨rfl, hv⟩ hfs
    · split
      · exact .cons ⟨rfl, hv⟩ (.cons ⟨rfl, hw⟩ hfs)
      · exact .cons ⟨rfl, hw⟩ ih

/-- Corresponding values under the same keys make corresponding fields. -/
theorem pairs_ofPairs (keys : List String) {vs vs' : List Value}
    (hvs : List.Forall₂ ρ.Corresponds vs vs') :
    List.Forall₂ ρ.Pairs (Fields.ofPairs (keys.zip vs)) (Fields.ofPairs (keys.zip vs')) := by
  have hfold : ∀ fs fs' : Fields Value, List.Forall₂ ρ.Pairs fs fs' →
      List.Forall₂ ρ.Pairs
        ((keys.zip vs).foldl (fun fields pair => Fields.insert fields pair.1 pair.2) fs)
        ((keys.zip vs').foldl (fun fields pair => Fields.insert fields pair.1 pair.2) fs') := by
    induction hvs generalizing keys with
    | nil =>
      intro fs fs' hfs
      rw [List.zip_nil_right]
      exact hfs
    | cons hv _ ih =>
      intro fs fs' hfs
      cases keys with
      | nil => exact hfs
      | cons key keys => exact ih keys _ _ (pairs_insert hfs key hv)
  exact hfold [] [] .nil

end Correspondence

end TemplateExpr
