import ResourceTable.Proofs.Json.Distinct
import ResourceTable.Proofs.Wire.Fields

namespace ResourceTable

open Wire Traversal ResourceTable.Tree

namespace Codec

variable {α β : Type}

/-- What is read off a tree is what is decoded from the value that it holds. -/
def Coherent (c : Codec α) : Prop :=
  ∀ ⦃t : Tree⦄ ⦃depth : Nat⦄ ⦃v : Json⦄, t.Holds depth v →
    ∀ x, c.read t depth = .ok x ↔ c.decode v = .ok x

theorem scalar_read_eq_ok_iff {encode : α → Json} {decode : Json → Except DecodeError α} {t : Tree}
    {depth : Nat} {w : Json} (hw : t.surface = .ok w) (x : α) :
    (scalar encode decode).read t depth = .ok x ↔ decode w = .ok x := by
  have hread : (scalar encode decode).read t depth = (decode w).mapError fun _ => .mismatch := by
    simp only [scalar, hw, bind, Except.bind]
    cases decode w <;> rfl
  rw [hread, mapError_eq_ok]

theorem scalar_coherent {encode : α → Json} {decode : Json → Except DecodeError α}
    (harr : ∀ vs x, decode (.arr vs) ≠ .ok x) (hobj : ∀ es x, decode (.obj es) ≠ .ok x) :
    (scalar encode decode).Coherent := by
  intro t depth v h x
  cases h.shape with
  | arr each =>
    rw [scalar_read_eq_ok_iff rfl]
    exact iff_of_false (harr [] x) (harr _ x)
  | obj distinct each =>
    rw [scalar_read_eq_ok_iff rfl]
    exact iff_of_false (hobj [] x) (hobj _ x)
  | _ => exact scalar_read_eq_ok_iff rfl x

theorem wrongType_ne_ok {v : Json} {expected : Expected} {x : α} :
    wrongType v expected ≠ .ok x :=
  nofun

theorem string_coherent : string.Coherent := scalar_coherent nofun nofun

theorem bool_coherent : bool.Coherent := scalar_coherent nofun nofun

theorem integer_coherent {low high : Int} {expected : Expected} {ofInt : Int → α}
    {toInt : α → Int} : (integer low high expected ofInt toInt).Coherent :=
  scalar_coherent nofun nofun

theorem int64_coherent : int64.Coherent := integer_coherent

theorem int32_coherent : int32.Coherent := integer_coherent

theorem uint16_coherent : uint16.Coherent := integer_coherent

theorem instant_coherent : instant.Coherent :=
  scalar_coherent (fun _ _ => wrongType_ne_ok) (fun _ _ => wrongType_ne_ok)

theorem json_coherent : json.Coherent := by
  intro t depth v h x
  simp only [json, h.value, Except.ok.injEq]

theorem Coherent.iso {c : Codec α} (h : c.Coherent) (wrap : α → β) (unwrap : β → α) :
    (c.iso wrap unwrap).Coherent := by
  intro t depth v ht x
  simp only [Codec.iso, map_eq_ok, h ht]

theorem Coherent.option {c : Codec α} (h : c.Coherent) : (option c).Coherent := by
  intro t depth v ht x
  have hsome := h ht
  cases ht.shape with
  | null => simp only [Codec.option, Except.ok.injEq]
  | _ => simp only [Codec.option, map_eq_ok, hsome]

theorem mapM_read_eq_ok_iff {c : Codec α} (h : c.Coherent) {items : List Tree} {vs : List Json}
    {depth : Nat} (each : List.Forall₂ (Holds depth) items vs) (xs : List α) :
    (items.mapM fun t => c.read t depth) = .ok xs ↔ vs.mapM c.decode = .ok xs := by
  rw [mapM_eq_ok_iff, mapM_eq_ok_iff]
  exact forall₂_congr_left (S := Holds depth) (fun _ _ x ht => h ht x) each

theorem Coherent.list {c : Codec α} (h : c.Coherent) : (list c).Coherent := by
  intro t depth v ht x
  cases ht.shape with
  | arr each => exact mapM_read_eq_ok_iff h each x
  | _ => constructor <;> rintro ⟨⟩

def DecodesEntry (c : Codec α) (e : String × Json) (x : String × α) : Prop :=
  ∃ y, c.decode e.2 = .ok y ∧ (e.1, y) = x

theorem keys_of_forall₂_decodesEntry {c : Codec α} {es : Entries Json} {xs : Entries α}
    (h : List.Forall₂ c.DecodesEntry es xs) : es.map Prod.fst = xs.map Prod.fst := by
  rw [← List.forall₂_eq_eq_eq, List.forall₂_map_left_iff, List.forall₂_map_right_iff]
  refine h.imp ?_
  rintro e x ⟨y, -, rfl⟩
  rfl

/-- The order in which entries are decoded shows only in the order of the results. -/
theorem forall₂_decodesEntry_perm {c : Codec α} {es es' : Entries Json} {xs : Entries α}
    (hp : es.Perm es') (hnodup : (es'.map Prod.fst).Nodup)
    (h : List.Forall₂ c.DecodesEntry es' xs) :
    ∃ ys, List.Forall₂ c.DecodesEntry es ys ∧ Dict.ofList ys = Dict.ofList xs := by
  obtain ⟨ys, hys, hperm⟩ := List.perm_comp_forall₂ hp h
  refine ⟨ys, hys, ?_⟩
  simp only [Dict.ofList,
    Entries.sorted_eq_of_perm hperm (keys_of_forall₂_decodesEntry h ▸ hnodup)]

/-- One by one in the order of the text, or in that of the keys. -/
theorem Coherent.dict {c : Codec α} (h : c.Coherent) : (dict c).Coherent := by
  intro t depth v ht x
  cases ht.shape with
  | @obj depth members es distinct each =>
    have hperm := Entries.sorted_perm distinct
    simp only [Codec.dict, bind_eq_ok, mapM_eq_ok_iff, pure_eq_ok]
    refine (exists_congr fun xs => and_congr_left' <|
      forall₂_congr_left (Q := c.DecodesEntry) ?_ each).trans ?_
    · rintro ⟨_, t⟩ e y ⟨rfl, hm⟩
      simp only [bind_eq_ok, pure_eq_ok, h hm]
      rfl
    · constructor
      · rintro ⟨xs, hxs, heq⟩
        obtain ⟨ys, hys, hsame⟩ := forall₂_decodesEntry_perm hperm distinct hxs
        exact ⟨ys, hys, hsame.trans heq⟩
      · rintro ⟨xs, hxs, heq⟩
        obtain ⟨ys, hys, hsame⟩ :=
          forall₂_decodesEntry_perm hperm.symm es.ascending_sorted.nodup_keys hxs
        exact ⟨ys, hys, hsame.trans heq⟩
  | _ => constructor <;> rintro ⟨⟩

end Codec

end ResourceTable
