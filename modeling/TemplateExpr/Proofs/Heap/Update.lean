import TemplateExpr.Proofs.Heap.Path

/-!
# Updates through a path

An update goes to the deepest value on the path that is there. What is missing below it becomes
fresh objects, each with one field.

* `Heap.Deepest`            the deepest value on a path, short of its end, that is not null;
* `Heap.Updated`            what a path finds after an update;
* `Heap.Deepest.concat`     one more segment behind a value that is missing;
* `Heap.updated_write`      a write to the value before the last segment is an update;
* `Heap.Updated.below`      so is one to a fresh object that an update has put there.
-/

namespace TemplateExpr.Heap

/-- The value in front of the segment `a` at `i` is not null, and all behind it are. -/
structure Deepest (h : Heap) (root : Value) (path : List Segment) (i : Nat) (a : Segment) :
    Prop where
  segment : path[i]? = some a
  found : h.follow root (path.take i) ≠ .null
  missing : ∀ j, i < j → j < path.length → h.follow root (path.take j) = .null

/-- The path leads to `v`. The values up to `i` are those of before, and those behind it are fresh
objects that hold nothing but the way to the next. -/
structure Updated (h h' : Heap) (root : Value) (path : List Segment) (i : Nat) (v : Value) :
    Prop where
  value : h'.follow root path = v
  kept : ∀ j, j ≤ i → h'.follow root (path.take j) = h.follow root (path.take j)
  made : ∀ j b, i < j → path[j]? = some b → ∃ r, h.objects.size ≤ r ∧
    h'.follow root (path.take j) = .object r ∧
    h'.fields r = [(b.name, h'.follow root (path.take (j + 1)))]

variable {h h₁ h₂ : Heap} {root : Value} {path : List Segment} {a b : Segment} {i : Nat}

/-- If the value before the last segment is there, it is the deepest. -/
theorem deepest_concat (hfound : h.follow root path ≠ .null) (a : Segment) :
    h.Deepest root (path ++ [a]) path.length a := by
  refine ⟨List.getElem?_concat_length, by rwa [List.take_left], fun j hj hlt => ?_⟩
  rw [List.length_append, List.length_singleton] at hlt
  omega

/-- If it is missing, the deepest is found before it, also in a heap with more in it. -/
theorem Deepest.concat (hdeepest : h₁.Deepest root path i b) (hext : h.Extends h₁)
    (hroot : h.PlainData root) (hmissing : h.follow root path = .null) (a : Segment) :
    h.Deepest root (path ++ [a]) i b := by
  have hi : i < path.length := (List.getElem?_eq_some_iff.mp hdeepest.segment).1
  refine ⟨?_, ?_, fun j hj hlt => ?_⟩
  · rw [List.getElem?_append_left hi]
    exact hdeepest.segment
  · rw [List.take_append_of_le_length (by omega), ← hext.follow_eq hroot]
    exact hdeepest.found
  · rw [List.length_append, List.length_singleton] at hlt
    by_cases hend : j = path.length
    · rw [hend, List.take_left, hmissing]
    · rw [List.take_append_of_le_length (by omega), ← hext.follow_eq hroot]
      exact hdeepest.missing j hj (by omega)

/-- No container on the way to a container is that container. -/
theorem follow_take_ne (hroot : h.PlainData root) (hend : (h.follow root path).isContainer = true)
    {j : Nat} (hj : j < path.length) : h.follow root (path.take j) ≠ h.follow root path := by
  intro heq
  have hrest : path.drop j ≠ [] := by
    rw [Ne, List.drop_eq_nil_iff]
    omega
  have hsplit : h.follow (h.follow root (path.take j)) (path.drop j) = h.follow root path := by
    rw [← follow_append, List.take_append_drop]
  have hinside := inside_of_follow (c := h.follow root (path.take j)) hrest (by rwa [hsplit])
  rw [hsplit, heq] at hinside
  exact (hroot.follow path).not_inside_self hinside

/-- A write to a container that is not on the way keeps the way. -/
theorem follow_write {c : Value} (v : Value)
    (hway : ∀ j, j < path.length → h.follow root (path.take j) ≠ c) {j : Nat}
    (hj : j ≤ path.length) :
    (h.write c a v).follow root (path.take j) = h.follow root (path.take j) := by
  refine follow_eq_of_steps fun k hk b => ?_
  rw [List.length_take] at hk
  rw [List.take_take, Nat.min_eq_left (by omega)]
  exact h.step_write_of_ne a v (hway k (by omega)) b

theorem updated_write (hroot : h.PlainData root) (htakes : ¬ h.Refuses (h.follow root path) a)
    (v : Value) :
    h.Updated (h.write (h.follow root path) a v) root (path ++ [a]) path.length v := by
  have hway := fun j => h.follow_take_ne hroot (isContainer_of_not_refuses htakes) (j := j)
  refine ⟨?_, fun j hj => ?_, fun j b hj hb => ?_⟩
  · have hend := follow_write (a := a) v hway (Nat.le_refl _)
    rw [List.take_length] at hend
    rw [follow_concat, hend, step_write_self (hroot.follow path) htakes]
  · rw [List.take_append_of_le_length hj]
    exact follow_write v hway hj
  · have hlt := (List.getElem?_eq_some_iff.mp hb).1
    rw [List.length_append, List.length_singleton] at hlt
    omega

/-! ## a fresh object -/

theorem Data.ne_fresh {c : Value} (hc : h.PlainData c) {r : Nat} (hr : h.objects.size ≤ r) :
    c ≠ .object r := by
  rintro rfl
  exact absurd hc.object_lt (Nat.not_lt.mpr hr)

/-- A write to an object that is not in a heap keeps what is. -/
theorem Extends.write (hext : h.Extends h₁) {r : Nat} (hr : h.objects.size ≤ r) (v : Value) :
    h.Extends (h₁.write (.object r) a v) := by
  have hsize := h₁.size_write (.object r) a v
  have harrays := hext.arrays_le
  have hobjects := hext.objects_le
  refine ⟨by omega, by omega, fun s hs => ?_, fun s hs => ?_⟩
  · rw [h₁.items_write_of_ne a v (by simp), hext.items_eq s hs]
  · have hne : Value.object s ≠ .object r := by
      intro heq
      have := Value.object.inj heq
      omega
    rw [h₁.fields_write_of_ne a v hne, hext.fields_eq s hs]

/-! Below, `h₁` is a heap with a fresh object, and `h₂` is what an update has made of it that led a
path to this object. -/

section
variable (hroot : h.PlainData root) (hfresh : h₁ = (h.newObject []).2)
include hroot hfresh

theorem Updated.way_ne (hupdated : h₁.Updated h₂ root path i (.object h.objects.size)) {j : Nat}
    (hj : j < path.length) : h₂.follow root (path.take j) ≠ .object h.objects.size := by
  have hext : h.Extends h₁ := hfresh ▸ h.extends_newObject []
  by_cases hji : j ≤ i
  · rw [hupdated.kept j hji, hext.follow_eq hroot]
    exact (hroot.follow _).ne_fresh (Nat.le_refl _)
  · obtain ⟨r, hr, hfollow, _⟩ :=
      hupdated.made j path[j] (by omega) (List.getElem?_eq_getElem hj)
    have hsize : h₁.objects.size = h.objects.size + 1 := by
      rw [hfresh]
      simp [newObject]
    rw [hfollow]
    intro heq
    have := Value.object.inj heq
    omega

/-- The fresh object is still empty. -/
theorem fields_fresh {w : Value} (hgrown : (h₁.write (h.follow root path) b w).Extends h₂) :
    h.objects.size < h₂.objects.size ∧ h₂.fields h.objects.size = [] := by
  have hsize : h₁.objects.size = h.objects.size + 1 := by
    rw [hfresh]
    simp [newObject]
  have hwrite := h₁.size_write (h.follow root path) b w
  have hle := hgrown.objects_le
  have hne : Value.object h.objects.size ≠ h.follow root path :=
    ((hroot.follow path).ne_fresh (Nat.le_refl _)).symm
  refine ⟨by omega, ?_⟩
  rw [hgrown.fields_eq _ (by omega), h₁.fields_write_of_ne b w hne, hfresh, fields_newObject_self]

variable (hi : i < path.length) {v : Value}
  (hupdated : h₁.Updated h₂ root path i (.object h.objects.size))
  (hgrown : (h₁.write (h.follow root (path.take i)) b (h₂.follow root (path.take (i + 1)))).Extends
    h₂)
include hi hupdated hgrown

/-- A write to the fresh object continues the update by one segment. -/
theorem Updated.below :
    h.Updated (h₂.write (.object h.objects.size) a v) root (path ++ [a]) i v := by
  have hext : h.Extends h₁ := hfresh ▸ h.extends_newObject []
  obtain ⟨hknown, hempty⟩ := fields_fresh hroot hfresh hgrown
  have hway : ∀ j, j ≤ path.length → (h₂.write (.object h.objects.size) a v).follow root
      ((path ++ [a]).take j) = h₂.follow root (path.take j) := by
    intro j hj
    rw [List.take_append_of_le_length hj]
    exact follow_write v (fun k hk => hupdated.way_ne hroot hfresh hk) hj
  have hfields : (h₂.write (.object h.objects.size) a v).fields h.objects.size =
      [(a.name, v)] := by
    show (h₂.setFields _ _).fields _ = _
    rw [h₂.fields_setFields_self _ hknown, hempty]
    rfl
  have hlast : (h₂.write (.object h.objects.size) a v).follow root
      ((path ++ [a]).take path.length) = .object h.objects.size := by
    rw [hway _ (Nat.le_refl _), List.take_length, hupdated.value]
  have hvalue : (h₂.write (.object h.objects.size) a v).follow root (path ++ [a]) = v := by
    rw [List.take_left] at hlast
    rw [follow_concat, hlast]
    show (((h₂.write (.object h.objects.size) a v).fields _).get? a.name).getD .null = v
    rw [hfields, Fields.get?, if_pos rfl]
    rfl
  refine ⟨hvalue, fun j hj => ?_, fun j d hj hd => ?_⟩
  · rw [hway j (by omega), hupdated.kept j hj, hext.follow_eq hroot,
      List.take_append_of_le_length (by omega)]
  · have hlt := (List.getElem?_eq_some_iff.mp hd).1
    rw [List.length_append, List.length_singleton] at hlt
    by_cases hend : j = path.length
    · subst hend
      rw [List.getElem?_concat_length] at hd
      rw [← Option.some.inj hd]
      refine ⟨h.objects.size, Nat.le_refl _, hlast, ?_⟩
      rw [hfields, List.take_of_length_le (by simp), hvalue]
    · rw [List.getElem?_append_left (by omega)] at hd
      obtain ⟨r, hr, hfollow, hcontent⟩ := hupdated.made j d hj hd
      have hle := hext.objects_le
      have hne : Value.object r ≠ .object h.objects.size := by
        rw [← hfollow]
        exact hupdated.way_ne hroot hfresh (by omega)
      refine ⟨r, by omega, ?_, ?_⟩
      · rw [hway j (by omega), hfollow]
      · rw [h₂.fields_write_of_ne a v hne, hcontent, hway (j + 1) (by omega)]

/-- The heap of before still has only one slot written. -/
theorem Updated.grown_below :
    (h.write (h.follow root (path.take i)) b
      ((h₂.write (.object h.objects.size) a v).follow root ((path ++ [a]).take (i + 1)))).Extends
      (h₂.write (.object h.objects.size) a v) := by
  have hext : h.Extends h₁ := hfresh ▸ h.extends_newObject []
  rw [List.take_append_of_le_length (by omega), follow_write v
    (fun k hk => hupdated.way_ne hroot hfresh hk) (by omega)]
  have hwrite := h.size_write (h.follow root (path.take i)) b (h₂.follow root (path.take (i + 1)))
  refine Extends.write ?_ (by omega) v
  exact (write_extends hext (hroot.follow _) _).trans hgrown

end

end TemplateExpr.Heap
