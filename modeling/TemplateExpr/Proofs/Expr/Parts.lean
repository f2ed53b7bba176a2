import TemplateExpr.Expr.Render

/-!
# The nodes of a tree

* `Expr.parts`           the trees right below a node;
* `Expr.Within`          the nodes of a tree, at any depth;
* `Expr.parts_induction` induction on trees, from the parts of a node to the node;
* `Expr.preorder`        the nodes of a tree, each before its parts;
* `Expr.render_congr`    the text of a tree depends on the heap through its literals only.
-/

namespace TemplateExpr.Expr

def parts : Expr → List Expr
  | scope _ | literal _ | str _ => []
  | member e _ | not e => [e]
  | keyed a b | binary _ a b | assign a b => [a, b]
  | conditional a b c => [a, b, c]
  | callScope _ es | array es | object _ es | chain es => es
  | callMember e _ es | callFunction e es | filter e _ es => e :: es

inductive Within : Expr → Expr → Prop where
  | self (e) : Within e e
  | part {d p e} : p ∈ e.parts → Within d p → Within d e

theorem Within.trans {d p e : Expr} (hd : Within d p) (hp : Within p e) : Within d e := by
  induction hp with
  | self => exact hd
  | part hmem _ ih => exact .part hmem ih

/-- What holds of every node holds of the topmost one and of every node of a part. -/
theorem forall_within_iff {P : Expr → Prop} {e : Expr} :
    (∀ d, Within d e → P d) ↔ P e ∧ ∀ p ∈ e.parts, ∀ d, Within d p → P d := by
  constructor
  · intro h
    exact ⟨h e (.self e), fun p hp d hd => h d (.part hp hd)⟩
  · rintro ⟨he, hp⟩ d hd
    cases hd with
    | self => exact he
    | part hmem hd => exact hp _ hmem d hd

theorem sizeOf_lt_of_mem_parts {p e : Expr} (h : p ∈ e.parts) : sizeOf p < sizeOf e := by
  have head : ∀ {e : Expr} {es : List Expr}, p ∈ e :: es → sizeOf p ≤ sizeOf e + sizeOf es := by
    intro e es hp
    rcases List.mem_cons.mp hp with rfl | hp
    · exact Nat.le_add_right _ _
    · exact Nat.le_trans (Nat.le_of_lt (List.sizeOf_lt_of_mem hp)) (Nat.le_add_left _ _)
  cases e with
  | scope | literal | str => simp [parts] at h
  | member | not =>
    rw [parts, List.mem_singleton] at h
    simp only [h, member.sizeOf_spec, not.sizeOf_spec]
    omega
  | keyed a b | binary _ a b | assign a b =>
    simp only [parts, List.mem_cons, List.not_mem_nil, or_false] at h
    simp only [keyed.sizeOf_spec, binary.sizeOf_spec, assign.sizeOf_spec]
    rcases h with rfl | rfl <;> omega
  | conditional a b c =>
    simp only [parts, List.mem_cons, List.not_mem_nil, or_false] at h
    rw [conditional.sizeOf_spec]
    rcases h with rfl | rfl | rfl <;> omega
  | callScope _ es | array es | object _ es | chain es =>
    have hlt : sizeOf p < sizeOf es := List.sizeOf_lt_of_mem h
    simp only [callScope.sizeOf_spec, array.sizeOf_spec, object.sizeOf_spec, chain.sizeOf_spec]
    omega
  | callMember e _ es | callFunction e es | filter e _ es =>
    have hle : sizeOf p ≤ sizeOf e + sizeOf es := head h
    simp only [callMember.sizeOf_spec, callFunction.sizeOf_spec, filter.sizeOf_spec]
    omega

@[elab_as_elim]
theorem parts_induction {motive : Expr → Prop}
    (step : ∀ e : Expr, (∀ p ∈ e.parts, motive p) → motive e) (e : Expr) : motive e := by
  induction hn : sizeOf e using Nat.strongRecOn generalizing e with
  | _ n ih => exact step e fun p hp => ih _ (hn ▸ sizeOf_lt_of_mem_parts hp) p rfl

/-! ## nodes in their order -/

/-- The nodes of a tree from left to right, each before its parts. -/
def preorder (e : Expr) : List Expr :=
  e :: e.parts.attach.flatMap fun p => preorder p.1
termination_by sizeOf e
decreasing_by exact sizeOf_lt_of_mem_parts p.2

theorem preorder_eq (e : Expr) : e.preorder = e :: e.parts.flatMap preorder := by
  rw [preorder, List.flatMap_subtype (g := preorder) (fun _ _ => rfl), List.unattach_attach]

theorem mem_preorder_iff {d e : Expr} : d ∈ e.preorder ↔ Within d e := by
  induction e using parts_induction with
  | step e ih =>
    rw [preorder_eq, List.mem_cons, List.mem_flatMap]
    constructor
    · rintro (rfl | ⟨p, hp, hd⟩)
      · exact .self d
      · exact .part hp ((ih p hp).mp hd)
    · intro h
      cases h with
      | self => exact .inl rfl
      | part hp hd => exact .inr ⟨_, hp, (ih _ hp).mpr hd⟩

/-! ## texts -/

variable {h h' : Heap}

theorem renderAll_congr {es : List Expr} (hes : ∀ e ∈ es, e.render h' = e.render h) :
    renderAll h' es = renderAll h es := by
  induction es with
  | nil => rw [renderAll, renderAll]
  | cons e es ih =>
    rw [renderAll, renderAll, hes e List.mem_cons_self,
      ih fun e' he' => hes e' (List.mem_cons_of_mem e he')]

theorem renderEntries_congr (keys : List String) {es : List Expr}
    (hes : ∀ e ∈ es, e.render h' = e.render h) :
    renderEntries h' keys es = renderEntries h keys es := by
  induction keys generalizing es with
  | nil => cases es <;> rw [renderEntries, renderEntries] <;> simp
  | cons key keys ih =>
    cases es with
    | nil => rw [renderEntries, renderEntries] <;> simp
    | cons e es =>
      rw [renderEntries, renderEntries, hes e List.mem_cons_self,
        ih fun e' he' => hes e' (List.mem_cons_of_mem e he')]

/-- A tree is written in the same way where its literals are. -/
theorem render_congr {e : Expr}
    (he : ∀ v, Within (literal v) e → literalText h' v = literalText h v) :
    e.render h' = e.render h := by
  induction e using parts_induction with
  | step e ih =>
    have ih : ∀ p ∈ e.parts, p.render h' = p.render h :=
      fun p hp => ih p hp fun v hv => he v (.part hp hv)
    cases e with
    | scope | str => rw [render, render]
    | literal v =>
      rw [render, render]
      exact he v (.self _)
    | member e _ | not e => rw [render, render, ih e (by simp [parts])]
    | keyed a b | binary _ a b | assign a b =>
      rw [render, render, ih a (by simp [parts]), ih b (by simp [parts])]
    | conditional a b c =>
      rw [render, render, ih a (by simp [parts]), ih b (by simp [parts]), ih c (by simp [parts])]
    | callScope _ es | array es | chain es =>
      have hes : renderAll h' es = renderAll h es := renderAll_congr ih
      rw [render, render, hes]
    | object keys es =>
      have hes : renderEntries h' keys es = renderEntries h keys es := renderEntries_congr keys ih
      rw [render, render, hes]
    | callMember e _ es | callFunction e es | filter e _ es =>
      rw [render, render, ih e (by simp [parts]),
        renderAll_congr fun e' he' => ih e' (List.mem_cons_of_mem e he')]

end TemplateExpr.Expr
