import ResourceTable.Proofs.Table.Conversion
import ResourceTable.Proofs.Table.Wire

namespace ResourceTable

open Traversal

theorem Embedded.json?_ofJson? (o : Option Json) : (ofJson? o).json? = .ok o := by
  cases o <;> rfl

namespace Table

theorem settle_eq_ok_iff {t : Table Embedded} {u : Table (Option Json)} :
    t.settle = .ok u ↔
      List.Forall₂ (fun r s => r.object.json? = .ok s.object ∧ s = r.embed s.object) t.rows u.rows ∧
        u = t.withRows u.rows := by
  have hrow : ∀ (r : Row Embedded) (s : Row (Option Json)),
      r.settle = .ok s ↔ r.object.json? = .ok s.object ∧ s = r.embed s.object := by
    intro r s
    simp only [Row.settle, map_eq_ok]
    constructor
    · rintro ⟨o, ho, rfl⟩
      exact ⟨ho, rfl⟩
    · rintro ⟨ho, hs⟩
      exact ⟨s.object, ho, hs.symm⟩
  simp only [settle, map_eq_ok, mapM_eq_ok_iff, hrow]
  constructor
  · rintro ⟨rows, hrows, rfl⟩
    exact ⟨hrows, rfl⟩
  · rintro ⟨hrows, hu⟩
    exact ⟨u.rows, hrows, hu.symm⟩

theorem settle_received (u : Table (Option Json)) : u.received.settle = .ok u := by
  rw [settle_eq_ok_iff]
  refine ⟨?_, rfl⟩
  simp only [received, withRows, List.forall₂_map_left_iff, List.forall₂_same]
  intro r _
  exact ⟨Embedded.json?_ofJson? r.object, rfl⟩

theorem decode_encode_settled (u : Table (Option Json)) :
    decode (codec.encode u) = .ok u.arrived.received := by
  rw [decode, decode_encode]
  rfl

theorem encode_received_arrived_iff (u : Table (Option Json)) :
    u.arrived.received.encode = .ok (codec.encode u) ↔ ∀ r ∈ u.rows, r.object ≠ some .null := by
  rw [encode, settle_received, ← encode_arrived_iff]
  simp only [Except.map, Except.ok.injEq]

end Table

namespace Convertor

variable {ι : Type} [DecidableEq ι] [Hashable ι] {β : ι → Type}
variable {c : Convertor} {ctx : Context β} {o : Object} {options : Option TableOptions}

theorem settled_elements {t : Table Embedded} {u : Table (Option Json)}
    (ht : c.convert ctx o options = .ok t) (hu : t.settle = .ok u) :
    List.Forall₂ (fun e s => ∃ w, e.encoding = .ok w ∧ s.object = some w) o.elements u.rows := by
  refine forall₂_trans ?_ (convert_eq_ok_iff.1 ht).1 (Table.settle_eq_ok_iff.1 hu).1
  rintro e r s ⟨info, -, rfl⟩ ⟨hjson, -⟩
  obtain ⟨w, hw, hs⟩ := map_eq_ok.1 hjson
  exact ⟨w, hw, hs.symm⟩

/-- All comes back but JSON null, which comes back as nothing embedded.  So the JSON of the decoded
table is the same exactly where no element encodes as null. -/
theorem converted_roundTrip {t : Table Embedded} {v : Json}
    (ht : c.convert ctx o options = .ok t) (hv : t.encode = .ok v) :
    ∃ t', Table.decode v = .ok t' ∧
      t'.resourceVersion = t.resourceVersion ∧ t'.selfLink = t.selfLink ∧
      t'.continueToken = t.continueToken ∧ t'.remaining = t.remaining ∧ t'.columns = t.columns ∧
      List.Forall₂ (fun r r' => r'.cells = r.cells ∧ r'.conditions = r.conditions)
        t.rows t'.rows ∧
      List.Forall₂ (fun e r' => ∃ w, e.encoding = .ok w ∧
        r'.object.json? = .ok (if w = .null then none else some w)) o.elements t'.rows ∧
      (t'.encode = .ok v ↔ ∀ e ∈ o.elements, e.encoding ≠ .ok .null) := by
  -- `u` is the table on the wire; what is decoded differs from it where a row embeds null
  obtain ⟨u, hu, rfl⟩ := map_eq_ok.1 hv
  obtain ⟨hrows, hsame⟩ := Table.settle_eq_ok_iff.1 hu
  have helements := settled_elements ht hu
  refine ⟨u.arrived.received, Table.decode_encode_settled u, ?_, ?_, ?_, ?_, ?_, ?_, ?_, ?_⟩
  iterate 5
    · rw [hsame]
      rfl
  · simp only [Table.received, Table.arrived, Table.withRows, List.forall₂_map_right_iff]
    refine hrows.imp ?_
    rintro r s ⟨-, hs⟩
    rw [hs]
    exact ⟨rfl, rfl⟩
  · simp only [Table.received, Table.arrived, Table.withRows, List.forall₂_map_right_iff]
    refine helements.imp ?_
    rintro e s ⟨w, hw, hs⟩
    refine ⟨w, hw, (Embedded.json?_ofJson? _).trans ?_⟩
    by_cases hn : w = .null
    · simp [Row.arrived, Row.embed, Embedded.arrived, hs, hn]
    · simp [Row.arrived, Row.embed, Embedded.arrived, hs, hn]
  · rw [Table.encode_received_arrived_iff]
    refine (forall_mem_iff ?_ helements).symm
    rintro e s ⟨w, hw, hs⟩
    rw [hw, hs]
    simp

theorem converted_roundTrip_pods :
    let a : Object :=
      ⟨some ⟨⟨"7", ""⟩, "a", "", none⟩, none, none, .ok (.obj [("kind", .str "Pod")])⟩
    let b : Object := ⟨some ⟨⟨"8", ""⟩, "b", "", none⟩, none, none, .ok .null⟩
    let c : Convertor := ⟨⟨"", "pods"⟩⟩
    let ctx : Context fun _ : Unit => String := .empty
    ∃ t v t', c.convert ctx ⟨none, none, some [a, b], .ok .null⟩ none = .ok t ∧ t.encode = .ok v ∧
      Table.decode v = .ok t' ∧ t'.columns = t.columns ∧ ¬ t'.encode = .ok v := by
  intro a b c ctx
  obtain ⟨t', ht', -, -, -, -, hcolumns, -, -, hsame⟩ :=
    converted_roundTrip (c := c) (o := ⟨none, none, some [a, b], .ok .null⟩) (t := _) (v := _)
      (show c.convert ctx _ none = .ok _ from rfl) rfl
  refine ⟨_, _, t', rfl, rfl, ht', hcolumns, fun h => hsame.1 h b ?_ rfl⟩
  simp [Object.elements]

/-- An object of its own that encodes as null: nothing is embedded after the way over the wire, and
the second JSON is not the first. -/
theorem null_element_lost :
    let o : Object := ⟨some ⟨⟨"", ""⟩, "a", "", none⟩, none, none, .ok .null⟩
    let c : Convertor := ⟨⟨"", "pods"⟩⟩
    let ctx : Context fun _ : Unit => String := .empty
    ∃ t v t', c.convert ctx o none = .ok t ∧ t.encode = .ok v ∧ Table.decode v = .ok t' ∧
      t'.rows.map (fun r => r.object.json?) = [.ok none] ∧ ¬ t'.encode = .ok v := by
  intro o c ctx
  let u : Table (Option Json) :=
    ⟨"", "", "", none, columns none, [⟨[.str "a", .str unknownTime], [], some .null⟩]⟩
  refine ⟨_, Table.codec.encode u, u.arrived.received, rfl, rfl, Table.decode_encode_settled u, rfl,
    ?_⟩
  rw [Table.encode_received_arrived_iff]
  exact fun h => h _ List.mem_cons_self rfl

end Convertor

end ResourceTable
