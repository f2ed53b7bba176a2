import TemplateExpr.Proofs.Json.Documents
import TemplateExpr.Proofs.Number.Nearest
import TemplateExpr.Proofs.Token.Numbers

/-!
# From documents to values and back

* `Fields.Ordered`            every name once, in the order of the names;
* `Json.Valid`                the documents there are;
* `Json.widened`              integers above 63 bits as floats;
* `Json.loaded_of_valid`      what a loaded document has become;
* `Heap.valid_toJson`, `Heap.widened_toJson`   the documents of data;
* `Json.conversions_round_trip`   both ways around.
-/

namespace TemplateExpr

namespace Fields

variable {α β : Type}

def Ordered (fields : Fields α) : Prop := fields.names.Pairwise (· < ·)

theorem insert_of_forall_lt {fields : Fields α} {name : String} (a : α)
    (h : ∀ key ∈ fields.names, key < name) : insert fields name a = fields ++ [(name, a)] := by
  induction fields with
  | nil => rfl
  | cons pair rest ih =>
    obtain ⟨key, b⟩ := pair
    have hkey : key < name := h key List.mem_cons_self
    have hne : name ≠ key := fun heq => String.lt_irrefl name (heq ▸ hkey)
    rw [insert, if_neg hne, if_neg (String.lt_asymm hkey),
      ih fun k hk => h k (List.mem_cons_of_mem _ hk), List.cons_append]

theorem foldl_insert_of_ordered (done pairs : Fields α) (h : Ordered (done ++ pairs)) :
    pairs.foldl (fun fields pair => insert fields pair.1 pair.2) done = done ++ pairs := by
  induction pairs generalizing done with
  | nil => rw [List.foldl_nil, List.append_nil]
  | cons pair pairs ih =>
    have hsplit : done ++ pair :: pairs = done ++ [pair] ++ pairs := by
      rw [List.append_assoc, List.singleton_append]
    have hlast : ∀ key ∈ names done, key < pair.1 := by
      rw [Ordered, names, List.map_append, List.map_cons, List.pairwise_append] at h
      exact fun key hkey => h.2.2 key hkey pair.1 List.mem_cons_self
    rw [List.foldl_cons, insert_of_forall_lt pair.2 hlast, ih _ (hsplit ▸ h), hsplit]

/-- Fields that are in order stay as they are. -/
theorem ofPairs_of_ordered {pairs : Fields α} (h : Ordered pairs) : ofPairs pairs = pairs :=
  foldl_insert_of_ordered [] pairs h

end Fields

namespace Json

/-! ## documents -/

inductive Valid : Json → Prop where
  | null : Valid .null
  | bool (b) : Valid (.bool b)
  | int {n} : -2 ^ 63 ≤ n → n < 2 ^ 64 → Valid (.int n)
  | float {x} : x.isFinite = true → Valid (.float x)
  | str (s) : Valid (.str s)
  | array {items} : (∀ j ∈ items, Valid j) → Valid (.array items)
  | object {fields} : Fields.Ordered fields → (∀ p ∈ fields, Valid p.2) → Valid (.object fields)

mutual

/-- The document with the nearest float for every integer that does not fit 64 bits with a
sign. -/
def widened : Json → Json
  | int n => if n ≤ Int64.maxValue.toInt then int n else float (Binary64.ofNat n.toNat)
  | array items => array (widenedItems items)
  | object fields => object (widenedFields fields)
  | null => null
  | bool b => bool b
  | float x => float x
  | str s => str s

def widenedItems : List Json → List Json
  | [] => []
  | x :: rest => widened x :: widenedItems rest

def widenedFields : List (String × Json) → List (String × Json)
  | [] => []
  | (name, x) :: rest => (name, widened x) :: widenedFields rest

end

theorem widenedItems_eq_map (items : List Json) : widenedItems items = items.map widened := by
  induction items with
  | nil => rw [widenedItems]; rfl
  | cons x rest ih => rw [widenedItems, ih, List.map_cons]

theorem widenedFields_eq_map (fields : List (String × Json)) :
    widenedFields fields = fields.map fun p => (p.1, p.2.widened) := by
  induction fields with
  | nil => rw [widenedFields]; rfl
  | cons field rest ih => rw [widenedFields, ih, List.map_cons]

/-! ## loading -/

theorem load_array (items : List Json) (h : Heap) :
    (array items).load h =
      (loadItems items h).2.newArray (loadItems items h).1.toArray := by
  rw [load]
  rfl

theorem load_object (fields : List (String × Json)) (h : Heap) :
    (object fields).load h =
      (loadFields fields h).2.newObject (Fields.ofPairs (loadFields fields h).1) := by
  rw [load]
  rfl

theorem loadItems_cons (x : Json) (rest : List Json) (h : Heap) :
    loadItems (x :: rest) h =
      ((x.load h).1 :: (loadItems rest (x.load h).2).1, (loadItems rest (x.load h).2).2) := by
  rw [loadItems]
  rfl

/-- Fields are loaded like items, and keep their names. -/
theorem loadFields_eq (fields : List (String × Json)) (h : Heap) :
    loadFields fields h =
      ((fields.map Prod.fst).zip (loadItems (fields.map Prod.snd) h).1,
        (loadItems (fields.map Prod.snd) h).2) := by
  induction fields generalizing h with
  | nil =>
    rw [loadFields]
    rfl
  | cons field rest ih =>
    have hcons : loadFields (field :: rest) h =
        ((field.1, (field.2.load h).1) :: (loadFields rest (field.2.load h).2).1,
          (loadFields rest (field.2.load h).2).2) := by
      rw [loadFields]
      rfl
    rw [hcons, ih, List.map_cons, List.map_cons, loadItems_cons, List.zip_cons_cons]

/-- Loading has only added to the heap, and the value is data with the widened document. -/
structure Loaded (d : Json) (h : Heap) (v : Value) (h' : Heap) : Prop where
  grown : h.Extends h'
  data : h'.Data Value.HasJson v
  toJson_eq : h'.toJson v = d.widened

theorem loadInt_of_le {n : Int} (low : -2 ^ 63 ≤ n) (high : n ≤ Int64.maxValue.toInt) :
    ∃ m : Int64, loadInt n = .int m ∧ m.toInt = n := by
  have hmin : Int64.minValue.toInt ≤ n := low
  have hnarrow : Number.narrow? n = some (Int64.ofInt n) := by
    rw [Number.narrow?, if_pos ⟨hmin, high⟩]
  exact ⟨Int64.ofInt n, by rw [loadInt, hnarrow], Number.toInt_of_narrow? hnarrow⟩

theorem loadInt_of_lt {n : Int} (high : Int64.maxValue.toInt < n) :
    loadInt n = .float (Binary64.ofNat n.toNat) := by
  have hpos : 0 ≤ n := Int.le_trans (by decide) (Int.le_of_lt high)
  have hnarrow : Number.narrow? n = none := by
    rw [Number.narrow?, if_neg fun h => Int.not_le.mpr high h.2]
  have hsign : decide (n < 0) = false := decide_eq_false (Int.not_lt.mpr hpos)
  have hsize : n.natAbs = n.toNat := by omega
  rw [loadInt, hnarrow, hsign, hsize]
  rfl

theorem loaded_leaf {d : Json} {v : Value} (h : Heap) (hv : v.HasJson)
    (hd : Snapshot.leafJson v = d.widened) : Loaded d h v h := by
  have hleaf : v.isContainer = false := by
    cases hv <;> rfl
  exact ⟨.refl h, .leaf hleaf hv, (h.toJson_leaf hleaf).trans hd⟩

theorem loaded_int {n : Int} (low : -2 ^ 63 ≤ n) (high : n < 2 ^ 64) (h : Heap) :
    Loaded (.int n) h (loadInt n) h := by
  by_cases hfits : n ≤ Int64.maxValue.toInt
  · obtain ⟨m, hm, rfl⟩ := loadInt_of_le low hfits
    rw [hm]
    refine loaded_leaf h (.int m) ?_
    rw [widened, if_pos hfits]
    rfl
  · have hwide := Int.not_le.mp hfits
    have hlow : (2 : Int) ^ 63 ≤ n := hwide
    have hfinite : (Binary64.ofNat n.toNat).isFinite = true :=
      Binary64.isFinite_ofNat (by omega) (by omega)
    rw [loadInt_of_lt hwide]
    refine loaded_leaf h (.float hfinite) ?_
    rw [widened, if_neg hfits]
    exact Snapshot.leafJson_float hfinite

/-- Items are loaded one after another, and what is loaded later changes none of them. -/
theorem loaded_items (items : List Json) (h : Heap)
    (hitems : ∀ d ∈ items, ∀ g, Loaded d g (d.load g).1 (d.load g).2) :
    h.Extends (loadItems items h).2 ∧
      (∀ v ∈ (loadItems items h).1, (loadItems items h).2.Data Value.HasJson v) ∧
      (loadItems items h).1.map (loadItems items h).2.toJson = items.map widened := by
  induction items generalizing h with
  | nil =>
    rw [loadItems]
    exact ⟨.refl h, fun v hv => absurd hv List.not_mem_nil, rfl⟩
  | cons x rest ih =>
    have hx := hitems x List.mem_cons_self h
    obtain ⟨hgrown, hdata, hdocs⟩ :=
      ih (x.load h).2 fun d hd => hitems d (List.mem_cons_of_mem _ hd)
    rw [loadItems_cons]
    refine ⟨hx.grown.trans hgrown, ?_, ?_⟩
    · exact List.forall_mem_cons.mpr ⟨hx.data.mono hgrown, hdata⟩
    · show _ :: _ = _
      rw [hdocs, hx.data.toJson_eq hgrown, hx.toJson_eq, List.map_cons]

theorem loaded_fields (fields : List (String × Json)) (h : Heap)
    (hfields : ∀ p ∈ fields, ∀ g, Loaded p.2 g (p.2.load g).1 (p.2.load g).2) :
    h.Extends (loadFields fields h).2 ∧
      (∀ p ∈ (loadFields fields h).1, (loadFields fields h).2.Data Value.HasJson p.2) ∧
      (loadFields fields h).1.map (fun p => (p.1, (loadFields fields h).2.toJson p.2)) =
        fields.map fun p => (p.1, p.2.widened) := by
  have hcontents : ∀ d ∈ fields.map Prod.snd, ∀ g, Loaded d g (d.load g).1 (d.load g).2 := by
    intro d hd
    obtain ⟨p, hp, rfl⟩ := List.mem_map.mp hd
    exact hfields p hp
  obtain ⟨hgrown, hdata, hdocs⟩ := loaded_items (fields.map Prod.snd) h hcontents
  rw [loadFields_eq]
  refine ⟨hgrown, fun p hp => hdata p.2 (List.of_mem_zip hp).2, ?_⟩
  have hzip := congrArg (List.zip (fields.map Prod.fst)) hdocs
  rw [List.zip_map_right, List.map_map, List.zip_map'] at hzip
  exact hzip

theorem loaded_newArray {items : List Json} {h g : Heap} {values : List Value}
    (hgrown : h.Extends g) (hdata : ∀ v ∈ values, g.Data Value.HasJson v)
    (hdocs : values.map g.toJson = items.map widened) :
    Loaded (.array items) h (g.newArray values.toArray).1 (g.newArray values.toArray).2 := by
  have hnew := g.extends_newArray values.toArray
  have hself := g.items_newArray_self values.toArray
  have hall : (g.newArray values.toArray).2.Data Value.HasJson (.array g.arrays.size) :=
    Heap.data_newArray hdata
  refine ⟨hgrown.trans hnew, hall, ?_⟩
  show (g.newArray values.toArray).2.toJson (.array g.arrays.size) = _
  rw [Heap.toJson_array hall, hself, widened, widenedItems_eq_map, ← hdocs]
  exact congrArg Json.array (List.map_congr_left fun v hv => (hdata v hv).toJson_eq hnew)

theorem loaded_newObject {fields : List (String × Json)} {h g : Heap} {pairs : Fields Value}
    (hgrown : h.Extends g) (hdata : ∀ p ∈ pairs, g.Data Value.HasJson p.2)
    (hdocs : pairs.map (fun p => (p.1, g.toJson p.2)) = fields.map fun p => (p.1, p.2.widened)) :
    Loaded (.object fields) h (g.newObject pairs).1 (g.newObject pairs).2 := by
  have hnew := g.extends_newObject pairs
  have hself := g.fields_newObject_self pairs
  have hall : (g.newObject pairs).2.Data Value.HasJson (.object g.objects.size) :=
    Heap.data_newObject hdata
  refine ⟨hgrown.trans hnew, hall, ?_⟩
  show (g.newObject pairs).2.toJson (.object g.objects.size) = _
  rw [Heap.toJson_object hall, hself, widened, widenedFields_eq_map, ← hdocs]
  refine congrArg Json.object (List.map_congr_left fun p hp => congrArg (Prod.mk p.1) ?_)
  exact (hdata p hp).toJson_eq hnew

theorem loaded_of_valid {d : Json} (hd : d.Valid) (h : Heap) :
    Loaded d h (d.load h).1 (d.load h).2 := by
  induction hd generalizing h with
  | null => exact loaded_leaf h .null rfl
  | bool b => exact loaded_leaf h (.bool b) rfl
  | int low high => exact loaded_int low high h
  | float hx => exact loaded_leaf h (.float hx) (Snapshot.leafJson_float hx)
  | str s => exact loaded_leaf h (.str s) rfl
  | @array items _ ih =>
    obtain ⟨hgrown, hdata, hdocs⟩ := loaded_items items h ih
    rw [load_array]
    exact loaded_newArray hgrown hdata hdocs
  | @object fields hordered _ ih =>
    obtain ⟨hgrown, hdata, hdocs⟩ := loaded_fields fields h ih
    have hnames : Fields.names (loadFields fields h).1 = Fields.names fields := by
      have := congrArg Fields.names hdocs
      simpa only [Fields.names, List.map_map, Function.comp_def] using this
    rw [load_object, Fields.ofPairs_of_ordered (by rwa [Fields.Ordered, hnames])]
    exact loaded_newObject hgrown hdata hdocs

end Json

/-! ## documents of data -/

namespace Heap

variable {h : Heap}

def Ordered (h : Heap) : Prop := ∀ r, (h.fields r).Ordered

theorem valid_toJson {v : Value} (hordered : h.Ordered) (hv : h.Data Value.HasJson v) :
    (h.toJson v).Valid := by
  induction hv with
  | leaf hleaf hjson =>
    rw [toJson_leaf h hleaf]
    cases hjson with
    | null => exact .null
    | bool b => exact .bool b
    | int n =>
      have hlow : -2 ^ 63 ≤ n.toInt := n.minValue_le_toInt
      have hhigh : n.toInt < 2 ^ 63 := n.toInt_lt
      exact .int hlow (by omega)
    | float hx =>
      rw [Snapshot.leafJson_float hx]
      exact .float hx
    | str s => exact .str s
  | array hr hitems ih =>
    rw [toJson_array (.array hr hitems)]
    refine .array fun d hd => ?_
    obtain ⟨w, hw, rfl⟩ := List.mem_map.mp hd
    exact ih w hw
  | @object r hr hfields ih =>
    rw [toJson_object (.object hr hfields)]
    refine .object ?_ fun d hd => ?_
    · rw [Fields.Ordered, Fields.names, List.map_map]
      exact hordered r
    · obtain ⟨p, hp, rfl⟩ := List.mem_map.mp hd
      exact ih p hp

/-- The integers of values have 64 bits, so their documents are wide enough. -/
theorem widened_toJson {v : Value} (hv : h.Data Value.HasJson v) :
    (h.toJson v).widened = h.toJson v := by
  induction hv with
  | leaf hleaf hjson =>
    rw [toJson_leaf h hleaf]
    cases hjson with
    | int n =>
      show (Json.int n.toInt).widened = _
      rw [Json.widened, if_pos n.toInt_le]
      rfl
    | float hx =>
      rw [Snapshot.leafJson_float hx]
      rfl
    | _ => rfl
  | array hr hitems ih =>
    rw [toJson_array (.array hr hitems), Json.widened, Json.widenedItems_eq_map, List.map_map]
    exact congrArg Json.array (List.map_congr_left ih)
  | object hr hfields ih =>
    rw [toJson_object (.object hr hfields), Json.widened, Json.widenedFields_eq_map, List.map_map]
    exact congrArg Json.object (List.map_congr_left fun p hp => congrArg (Prod.mk p.1) (ih p hp))

end Heap

/-! ## both ways around -/

namespace Json

/-- **Conversion round-trips.** A document comes back with the nearest floats for its wide integers
and nothing else changed. Data comes back alike, and equal. Leaves that documents do not have go
the way of null. -/
theorem conversions_round_trip :
    (∀ (d : Json) (h : Heap), d.Valid →
      h.Extends (d.load h).2 ∧ (d.load h).2.toJson (d.load h).1 = d.widened) ∧
    (∀ n : Nat, 2 ^ 63 ≤ n → n < 2 ^ 64 → Binary64.IsNearest (Binary64.ofNat n) n) ∧
    (∀ (h : Heap) (v : Value), h.Ordered → h.Data Value.HasJson v →
      h.Extends ((h.toJson v).load h).2 ∧
        ((h.toJson v).load h).2.Alike v ((h.toJson v).load h).1 ∧
        ((h.toJson v).load h).2.equals v ((h.toJson v).load h).1 = true) ∧
    ∀ (h : Heap) (v : Value), h.toJson v = h.nulled.toJson v.nulled := by
  refine ⟨fun d h hd => ?_, fun n low high => Binary64.isNearest_ofNat low high,
    fun h v hordered hv => ?_, fun h v => (h.toJson_nulled v).symm⟩
  · have hloaded := loaded_of_valid hd h
    exact ⟨hloaded.grown, hloaded.toJson_eq⟩
  · obtain ⟨hgrown, hdata, hdoc⟩ := loaded_of_valid (Heap.valid_toJson hordered hv) h
    have hv' := hv.mono hgrown
    have hsame : ((h.toJson v).load h).2.toJson v =
        ((h.toJson v).load h).2.toJson ((h.toJson v).load h).1 := by
      rw [hv.toJson_eq hgrown, hdoc, Heap.widened_toJson hv]
    have halike := Heap.alike_of_toJson_eq hv' hdata hsame
    exact ⟨hgrown, halike, Heap.equals_of_alike hv' halike⟩

/-- A document with the widest integer. -/
def wideDocument : Json := .object [("list", .array [.int 18446744073709551615])]

theorem valid_wideDocument : wideDocument.Valid := by
  refine .object (List.pairwise_singleton _ _) (List.forall_mem_singleton.mpr ?_)
  refine .array (List.forall_mem_singleton.mpr ?_)
  exact .int (by decide) (by decide)

/-- An object that holds one array twice, with a whole float in it. -/
def sharingHeap : Heap where
  arrays := #[#[.float (Binary64.ofNat (2 ^ 63))]]
  objects := #[[("a", .array 0), ("b", .array 0)]]

theorem data_sharingHeap : sharingHeap.Data Value.HasJson (.object 0) := by
  have hfloat : (Binary64.ofNat (2 ^ 63)).isFinite = true :=
    Binary64.isFinite_ofNat (by decide) (by decide)
  have harray : sharingHeap.Data Value.HasJson (.array 0) := by
    refine .array (by decide) ?_
    show ∀ v ∈ [Value.float (Binary64.ofNat (2 ^ 63))], _
    exact List.forall_mem_singleton.mpr (.leaf rfl (.float hfloat))
  refine .object (by decide) ?_
  show ∀ p ∈ [("a", Value.array 0), ("b", Value.array 0)], _
  intro p hp
  have hp' : p.2 = .array 0 := by
    rcases List.mem_cons.mp hp with rfl | hp
    · rfl
    · rw [List.mem_singleton.mp hp]
  rw [hp']
  exact harray

theorem ordered_sharingHeap : sharingHeap.Ordered := by
  intro r
  cases r with
  | zero =>
    show List.Pairwise (· < ·) ["a", "b"]
    decide
  | succ r => exact List.Pairwise.nil

theorem conversions_round_trip_shared :
    (wideDocument.Valid ∧ (wideDocument.load .empty).2.toJson (wideDocument.load .empty).1 =
      .object [("list", .array [.float (Binary64.ofNat 18446744073709551615)])]) ∧
    Binary64.IsNearest (Binary64.ofNat 18446744073709551615) 18446744073709551615 ∧
    (sharingHeap.Ordered ∧ sharingHeap.Data Value.HasJson (.object 0)) ∧
      ∃ (h : Heap) (v : Value), sharingHeap.Extends h ∧ h.Alike (.object 0) v ∧
        h.equals (.object 0) v = true := by
  obtain ⟨hdocument, hnearest, hvalue, _⟩ := conversions_round_trip
  refine ⟨⟨valid_wideDocument, ?_⟩, ?_, ⟨ordered_sharingHeap, data_sharingHeap⟩, ?_⟩
  · rw [(hdocument wideDocument .empty valid_wideDocument).2]
    rfl
  · exact_mod_cast hnearest 18446744073709551615 (by decide) (by decide)
  · exact ⟨_, _, hvalue sharingHeap (.object 0) ordered_sharingHeap data_sharingHeap⟩

end Json

end TemplateExpr
