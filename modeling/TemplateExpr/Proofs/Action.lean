import TemplateExpr.Action

/-!
# Steps of actions, and what they keep

* `answer`, `stateAfter`   the two sides of what an action does;
* `bind_eq_ok`             what an action in two steps has done;
* `Heap.Extends`           arrays and objects were only added to a heap;
* `Action.answer`          how a call ends;
* `Keeps`                  an action that leaves what is in the heap.
-/

namespace TemplateExpr

variable {W α β : Type}

/-! ## steps -/

section
variable {ε σ : Type}

/-- What an action answers, without the state. -/
def answer : EStateM.Result ε σ α → Except ε α
  | .ok a _ => .ok a
  | .error e _ => .error e

/-- The state after an action, whether it succeeds or not. -/
def stateAfter : EStateM.Result ε σ α → σ
  | .ok _ s => s
  | .error _ s => s

theorem bind_apply (x : EStateM ε σ α) (f : α → EStateM ε σ β) (s : σ) :
    (x >>= f) s =
      match x s with
      | .ok a s' => f a s'
      | .error e s' => .error e s' := by
  show EStateM.bind x f s = _
  unfold EStateM.bind
  cases x s <;> rfl

theorem map_apply (f : α → β) (x : EStateM ε σ α) (s : σ) :
    (f <$> x) s =
      match x s with
      | .ok a s' => .ok (f a) s'
      | .error e s' => .error e s' := by
  show EStateM.map f x s = _
  unfold EStateM.map
  cases x s <;> rfl

theorem bind_eq_ok {x : EStateM ε σ α} {f : α → EStateM ε σ β} {s s'' : σ} {b : β}
    (h : (x >>= f) s = .ok b s'') : ∃ a s', x s = .ok a s' ∧ f a s' = .ok b s'' := by
  rw [bind_apply] at h
  cases hx : x s with
  | ok a s' => exact ⟨a, s', rfl, by rw [hx] at h; exact h⟩
  | error e s' => rw [hx] at h; simp at h

end

namespace Heap

/-! ## heaps that grow -/

/-- What was in the heap is still there, as it was. -/
structure Extends (h h' : Heap) : Prop where
  arrays_le : h.arrays.size ≤ h'.arrays.size
  objects_le : h.objects.size ≤ h'.objects.size
  items_eq : ∀ r, r < h.arrays.size → h'.items r = h.items r
  fields_eq : ∀ r, r < h.objects.size → h'.fields r = h.fields r

theorem Extends.refl (h : Heap) : Extends h h :=
  ⟨Nat.le_refl _, Nat.le_refl _, fun _ _ => rfl, fun _ _ => rfl⟩

theorem Extends.trans {h₁ h₂ h₃ : Heap} (h : Extends h₁ h₂) (h' : Extends h₂ h₃) :
    Extends h₁ h₃ := by
  refine ⟨Nat.le_trans h.arrays_le h'.arrays_le, Nat.le_trans h.objects_le h'.objects_le, ?_, ?_⟩
  · intro r hr
    rw [h'.items_eq r (Nat.lt_of_lt_of_le hr h.arrays_le), h.items_eq r hr]
  · intro r hr
    rw [h'.fields_eq r (Nat.lt_of_lt_of_le hr h.objects_le), h.fields_eq r hr]

theorem extends_newArray (h : Heap) (items : Array Value) : Extends h (h.newArray items).2 := by
  refine ⟨by simp [newArray], Nat.le_refl _, fun r hr => ?_, fun _ _ => rfl⟩
  simp [Heap.items, newArray, Array.getElem?_push, Nat.ne_of_lt hr]

theorem extends_newObject (h : Heap) (fields : Fields Value) :
    Extends h (h.newObject fields).2 := by
  refine ⟨Nat.le_refl _, by simp [newObject], fun _ _ => rfl, fun r hr => ?_⟩
  simp [Heap.fields, newObject, Array.getElem?_push, Nat.ne_of_lt hr]

end Heap

/-! ## how calls end -/

/-- How a call ends: with a value, or because there is no such function. -/
def Action.answer (name : String) : Option Value → Action W Value
  | some v => return v
  | none => fail (.undefinedFunction name)

/-! ## actions that keep the heap -/

def Keeps (x : Action W α) : Prop := ∀ s a t, x s = .ok a t → s.heap.Extends t.heap

namespace Keeps

theorem pure (a : α) : Keeps (Pure.pure a : Action W α) := by
  rintro s _ t ⟨⟩
  exact .refl _

theorem bind {x : Action W α} {k : α → Action W β} (hx : Keeps x) (hk : ∀ a, Keeps (k a)) :
    Keeps (x >>= k) := by
  intro s b t h
  obtain ⟨a, s₁, ha, hb⟩ := bind_eq_ok h
  exact (hx s a s₁ ha).trans (hk a s₁ b t hb)

theorem heap : Keeps (Action.heap : Action W Heap) := by
  rintro s _ t ⟨⟩
  exact .refl _

theorem fail (e : EvalError) : Keeps (Action.fail e : Action W α) := by
  rintro s _ t ⟨⟩

theorem ofExcept (x : Except EvalError α) : Keeps (Action.ofExcept x : Action W α) := by
  cases x with
  | ok a => exact .pure a
  | error e => exact .fail e

theorem newArray (items : Array Value) : Keeps (Action.newArray items : Action W Value) := by
  rintro s _ t ⟨⟩
  exact s.heap.extends_newArray items

theorem newObject (fields : Fields Value) : Keeps (Action.newObject fields : Action W Value) := by
  rintro s _ t ⟨⟩
  exact s.heap.extends_newObject fields

end Keeps

end TemplateExpr
