import ResourceTable.Proofs.Table.RoundTrip

namespace ResourceTable

open Traversal

theorem Embedded.ne_null_of_decode {v : Json} {o : Option Json} (h : codec.decode v = .ok o) :
    o ≠ some .null := by
  cases v with
  | null =>
    cases h
    nofun
  | _ =>
    cases h
    nofun

theorem Embedded.ofJson?_raw? {e : Embedded} (h : e.object? = none) : .ofJson? e.raw? = e := by
  cases e with
  | live o => cases h
  | _ => rfl

theorem Row.object_ne_null_of_decode {v : Json} {r : Row (Option Json)}
    (h : codec.decode v = .ok r) : r.object ≠ some .null := by
  unfold codec at h
  obtain ⟨look, ⟨cells, conditions, object, _⟩, hreads, rfl⟩ :=
    Fields.exists_reads_of_decode (by decide) h
  obtain ⟨-, -, hobject, -⟩ := hreads
  apply hobject.imp
  · exact fun v o ho => Embedded.ne_null_of_decode ho
  · rintro o ⟨⟩
    nofun

namespace Table

theorem object_ne_null_of_decode {v : Json} {u : Table (Option Json)} (h : codec.decode v = .ok u) :
    ∀ r ∈ u.rows, r.object ≠ some .null := by
  unfold codec at h
  obtain ⟨look, ⟨version, link, token, remaining, columns, rows, _⟩, hreads, rfl⟩ :=
    Fields.exists_reads_of_decode (by decide) h
  obtain ⟨-, -, -, -, -, hrows, -⟩ := hreads
  apply hrows.imp
  · intro v rows hv r hr
    cases v with
    | arr items =>
      obtain ⟨w, -, hw⟩ := exists_of_forall₂ (mapM_eq_ok_iff.1 hv).flip hr
      exact Row.object_ne_null_of_decode hw
    | _ => cases hv
  · rintro rows ⟨⟩
    nofun

/-- No row embeds a live object or null. -/
def Normal (t : Table Embedded) : Prop :=
  ∀ r ∈ t.rows, r.object.object? = none ∧ r.object.raw? ≠ some .null

theorem normal_received {u : Table (Option Json)} (hu : ∀ r ∈ u.rows, r.object ≠ some .null) :
    u.received.Normal := by
  have hrow : ∀ o : Option Json, o ≠ some .null →
      (Embedded.ofJson? o).object? = none ∧ (Embedded.ofJson? o).raw? ≠ some .null := by
    rintro (_ | v) ho
    · exact ⟨rfl, nofun⟩
    · exact ⟨rfl, ho⟩
  exact List.forall_mem_map.2 fun r hr => hrow r.object (hu r hr)

theorem Normal.exists_received {t : Table Embedded} (h : t.Normal) :
    ∃ u : Table (Option Json), u.received = t ∧ ∀ r ∈ u.rows, r.object ≠ some .null := by
  refine ⟨t.withRows (t.rows.map fun r => r.embed r.object.raw?), ?_, ?_⟩
  · have hrows : (t.rows.map fun r => r.embed r.object.raw?).map Row.received = t.rows := by
      conv_rhs => rw [← List.map_id t.rows]
      rw [List.map_map, List.map_inj_left]
      intro r hr
      show r.embed (Embedded.ofJson? r.object.raw?) = r
      rw [Embedded.ofJson?_raw? (h r hr).1]
      rfl
    exact congrArg t.withRows hrows
  · exact List.forall_mem_map.2 fun r hr => (h r hr).2

theorem normal_of_decode {v : Json} {t : Table Embedded} (h : decode v = .ok t) : t.Normal := by
  obtain ⟨u, hu, rfl⟩ := map_eq_ok.1 h
  exact normal_received (object_ne_null_of_decode hu)

theorem Normal.decode_encode {t : Table Embedded} (h : t.Normal) :
    ∃ w, t.encode = .ok w ∧ decode w = .ok t := by
  obtain ⟨u, rfl, hu⟩ := h.exists_received
  refine ⟨codec.encode u, ?_, ?_⟩
  · rw [encode, settle_received]
    rfl
  · rw [decode_encode_settled, arrived_eq_self hu]

/-- The normal tables are those that some value is decoded as. -/
theorem normal_iff_exists_decode {t : Table Embedded} : t.Normal ↔ ∃ v, decode v = .ok t := by
  constructor
  · intro h
    obtain ⟨w, -, hdecode⟩ := h.decode_encode
    exact ⟨w, hdecode⟩
  · rintro ⟨v, hv⟩
    exact normal_of_decode hv

theorem Normal.encode_eq_iff {t t' : Table Embedded} (h : t.Normal) (h' : t'.Normal) :
    t.encode = t'.encode ↔ t = t' := by
  refine ⟨fun heq => ?_, congrArg encode⟩
  obtain ⟨w, hw, hdecode⟩ := h.decode_encode
  obtain ⟨w', hw', hdecode'⟩ := h'.decode_encode
  rw [heq, hw'] at hw
  cases hw
  rw [hdecode] at hdecode'
  exact Except.ok.inj hdecode'

/-- Whatever value a table is decoded from, it embeds no live object and no null; it encodes, what
it encodes as decodes to the same table, and that encodes as before. -/
theorem decoded_stable {v : Json} {t : Table Embedded} (h : decode v = .ok t) :
    t.Normal ∧ ∃ w t', t.encode = .ok w ∧ decode w = .ok t' ∧ t' = t ∧ t'.encode = .ok w := by
  have hnormal := normal_of_decode h
  obtain ⟨w, hw, hdecode⟩ := hnormal.decode_encode
  exact ⟨hnormal, w, t, hw, hdecode, rfl, hw⟩

theorem decoded_stable_spellings :
    let v : Json := .arr [.str "7", .str "", .str "next", .null, .arr [], .arr [
      .arr [.arr [.int 1], .arr [], .null],
      .obj [("cells", .arr []), ("extra", .bool true), ("object", .obj [("a", .null)])],
      .obj [("cells", .arr [])]]]
    let u : Table (Option Json) := ⟨"7", "", "next", none, [],
      [⟨[.int 1], [], none⟩, ⟨[], [], some (.obj [("a", .null)])⟩, ⟨[], [], none⟩]⟩
    decode v = .ok u.received ∧
      ∃ w, u.received.encode = .ok w ∧ decode w = .ok u.received ∧ w ≠ v := by
  intro v u
  have hu : codec.decode v = .ok u := by decide +kernel
  have hv : decode v = .ok u.received := by
    rw [decode, hu]
    rfl
  obtain ⟨-, w, t', hw, hdecode, rfl, -⟩ := decoded_stable hv
  refine ⟨hv, w, hw, hdecode, ?_⟩
  rintro rfl
  have hsame : codec.encode u = v := by
    rw [encode, settle_received] at hw
    exact Except.ok.inj hw
  exact absurd hsame (by decide +kernel)

end Table

end ResourceTable
