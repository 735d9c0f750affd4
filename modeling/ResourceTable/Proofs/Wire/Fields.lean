import Mathlib.Logic.Function.Basic
import ResourceTable.Proofs.Entries
import ResourceTable.Proofs.Traversal
import ResourceTable.Wire.Record

namespace ResourceTable

open Wire Traversal

namespace Field

variable {α : Type}

/-- What a draft holds of a field after its member has been met, if there is one. -/
def draft (f : Field α) : Option Json → Except DecodeError (Option α)
  | some v => (f.codec.decode v).map some
  | none => .ok none

/-- The value that a field takes from its member, or without one. -/
def Takes (f : Field α) : Option Json → α → Prop
  | some v, x => f.codec.decode v = .ok x
  | none, x => f.absent = some x

/-- The value `y` that comes back where `x` was written. -/
def Keeps (f : Field α) (x y : α) : Prop :=
  f.Takes (if f.leaveOut x then none else some (f.codec.encode x)) y

theorem Takes.imp {f : Field α} {p : α → Prop} {v : Option Json} {x : α} (h : f.Takes v x)
    (hdecode : ∀ v x, f.codec.decode v = .ok x → p x) (habsent : ∀ x, f.absent = some x → p x) :
    p x := by
  cases v with
  | none => exact habsent x h
  | some v => exact hdecode v x h

theorem takes_iff (f : Field α) (v : Option Json) (x : α) :
    f.Takes v x ↔ ∃ d, f.draft v = .ok d ∧ f.settle d = some x := by
  cases v with
  | none => simp [Takes, draft, settle]
  | some v =>
    simp only [Takes, draft, map_eq_ok]
    constructor
    · intro h
      exact ⟨some x, ⟨x, h, rfl⟩, rfl⟩
    · rintro ⟨_, ⟨y, hy, rfl⟩, hs⟩
      cases hs
      exact hy

end Field

namespace Fields

variable {ρ δ : Type}

def keys : {ρ δ : Type} → Fields ρ δ → List String
  | _, _, .nil => []
  | _, _, .cons f rest => f.key :: rest.keys

/-- The draft after the members that `look` finds have been met. -/
def Drafts (look : String → Option Json) : {ρ δ : Type} → Fields ρ δ → δ → Prop
  | _, _, .nil, () => True
  | _, _, .cons f rest, (x, d) => f.draft (look f.key) = .ok x ∧ rest.Drafts look d

/-- The row whose fields take the members that `look` finds. -/
def Reads (look : String → Option Json) : {ρ δ : Type} → Fields ρ δ → ρ → Prop
  | _, _, .nil, () => True
  | _, _, .cons f rest, (x, r) => f.Takes (look f.key) x ∧ rest.Reads look r

def Keeps : {ρ δ : Type} → Fields ρ δ → (r s : ρ) → Prop
  | _, _, .nil, (), () => True
  | _, _, .cons f rest, (x, r), (y, s) => f.Keeps x y ∧ rest.Keeps r s

theorem Drafts.congr {fs : Fields ρ δ} {look look' : String → Option Json} {d : δ}
    (h : ∀ key ∈ fs.keys, look key = look' key) : fs.Drafts look d ↔ fs.Drafts look' d := by
  induction fs with
  | nil => rfl
  | cons f rest ih =>
    obtain ⟨x, d⟩ := d
    rw [Drafts, Drafts, h f.key List.mem_cons_self,
      ih fun key hk => h key (List.mem_cons_of_mem _ hk)]

theorem Reads.congr {fs : Fields ρ δ} {look look' : String → Option Json} {r : ρ}
    (h : ∀ key ∈ fs.keys, look key = look' key) : fs.Reads look r ↔ fs.Reads look' r := by
  induction fs with
  | nil => rfl
  | cons f rest ih =>
    obtain ⟨x, r⟩ := r
    rw [Reads, Reads, h f.key List.mem_cons_self,
      ih fun key hk => h key (List.mem_cons_of_mem _ hk)]

theorem Drafts.unique {fs : Fields ρ δ} {look : String → Option Json} {d d' : δ}
    (h : fs.Drafts look d) (h' : fs.Drafts look d') : d = d' := by
  induction fs with
  | nil => rfl
  | cons f rest ih =>
    obtain ⟨x, d⟩ := d
    obtain ⟨x', d'⟩ := d'
    have hx : x = x' := Except.ok.inj (h.1.symm.trans h'.1)
    rw [hx, ih h.2 h'.2]

/-- Members taken from either of two drafts make a draft. -/
theorem Drafts.mix {fs : Fields ρ δ} {look look' : String → Option Json} {d d' : δ}
    (mixed : String → Option Json) (h : fs.Drafts look d) (h' : fs.Drafts look' d')
    (hm : ∀ key, mixed key = look key ∨ mixed key = look' key) : ∃ e, fs.Drafts mixed e := by
  induction fs with
  | nil => exact ⟨(), trivial⟩
  | cons f rest ih =>
    obtain ⟨x, d⟩ := d
    obtain ⟨x', d'⟩ := d'
    obtain ⟨e, he⟩ := ih h.2 h'.2
    rcases hm f.key with hk | hk
    · exact ⟨(x, e), hk ▸ h.1, he⟩
    · exact ⟨(x', e), hk ▸ h'.1, he⟩

theorem drafts_blank (fs : Fields ρ δ) : fs.Drafts (fun _ => none) fs.blank := by
  induction fs with
  | nil => trivial
  | cons f rest ih => exact ⟨rfl, ih⟩

theorem reads_iff (fs : Fields ρ δ) (look : String → Option Json) (r : ρ) :
    fs.Reads look r ↔ ∃ d, fs.Drafts look d ∧ fs.complete d = .ok r := by
  induction fs with
  | nil => exact ⟨fun _ => ⟨(), trivial, rfl⟩, fun _ => trivial⟩
  | cons f rest ih =>
    obtain ⟨x, r⟩ := r
    rw [Reads, Field.takes_iff, ih]
    constructor
    · rintro ⟨⟨y, hy, hs⟩, d, hd, hc⟩
      refine ⟨(y, d), ⟨hy, hd⟩, ?_⟩
      simp only [complete, hs, hc, Except.map]
    · rintro ⟨⟨y, d⟩, ⟨hy, hd⟩, hc⟩
      simp only [complete] at hc
      cases hs : f.settle y with
      | none => simp [hs] at hc
      | some z =>
        simp only [hs, map_eq_ok, Prod.mk.injEq] at hc
        obtain ⟨s, hs', rfl, rfl⟩ := hc
        exact ⟨⟨y, hy, hs⟩, d, hd, hs'⟩

/-- One more member: it goes to the field with its key and leaves the others as they are. -/
theorem meet_eq_ok_iff {fs : Fields ρ δ} {look : String → Option Json} {key : String} {v : Json}
    {d d' : δ} (hk : fs.keys.Nodup) (hd : fs.Drafts look d) :
    fs.meet key v d = .ok d' ↔ fs.Drafts (Function.update look key (some v)) d' := by
  induction fs with
  | nil => exact ⟨fun _ => trivial, fun _ => rfl⟩
  | cons f rest ih =>
    obtain ⟨x, d⟩ := d
    obtain ⟨x', d'⟩ := d'
    obtain ⟨hfresh, hrest⟩ := List.nodup_cons.1 hk
    simp only [meet, Drafts]
    by_cases hf : key = f.key
    -- no other field has this key, so their drafts do not see the member
    · have hsame : rest.Drafts (Function.update look key (some v)) d' ↔ rest.Drafts look d' := by
        apply Drafts.congr
        intro k hmem
        apply Function.update_of_ne
        rintro rfl
        exact hfresh (hf ▸ hmem)
      rw [if_pos hf, map_eq_ok, hsame, ← hf, Function.update_self]
      simp only [Field.draft, map_eq_ok, Prod.mk.injEq]
      constructor
      · rintro ⟨y, hy, rfl, rfl⟩
        exact ⟨⟨y, hy, rfl⟩, hd.2⟩
      · rintro ⟨⟨y, hy, rfl⟩, hr⟩
        exact ⟨y, hy, rfl, hd.2.unique hr⟩
    · rw [if_neg hf, map_eq_ok, Function.update_of_ne (Ne.symm hf)]
      simp only [Prod.mk.injEq, ih hrest hd.2]
      constructor
      · rintro ⟨e, he, rfl, rfl⟩
        exact ⟨hd.1, he⟩
      · rintro ⟨hx, he⟩
        exact ⟨d', he, Except.ok.inj (hd.1.symm.trans hx), rfl⟩

/-- All members, in any order. -/
theorem foldlM_meet_eq_ok_iff {fs : Fields ρ δ} {members : Entries Json}
    {look : String → Option Json} {d d' : δ} (hk : fs.keys.Nodup)
    (hm : (members.map Prod.fst).Nodup) (hd : fs.Drafts look d) :
    members.foldlM (fun d (key, v) => fs.meet key v d) d = .ok d' ↔
      fs.Drafts (fun key => (members.lookup key).or (look key)) d' := by
  -- `look` finds what was met before; each member that is met changes it at its key
  induction members generalizing look d with
  | nil =>
    simp only [List.foldlM_nil, List.lookup_nil, Option.none_or]
    exact ⟨fun h => Except.ok.inj h ▸ hd, fun h => congrArg Except.ok (hd.unique h)⟩
  | cons m members ih =>
    obtain ⟨key, v⟩ := m
    obtain ⟨hfresh, hrest⟩ := List.nodup_cons.1 hm
    have hlook : (fun k => (List.lookup k ((key, v) :: members)).or (look k)) =
        fun k => (members.lookup k).or (Function.update look key (some v) k) := by
      funext k
      rw [Entries.lookup_cons]
      by_cases hkey : k = key
      · rw [if_pos hkey, hkey, Entries.lookup_eq_none_iff.2 hfresh, Function.update_self]
        rfl
      · rw [if_neg hkey, Function.update_of_ne hkey]
    simp only [List.foldlM_cons, bind_eq_ok, meet_eq_ok_iff hk hd]
    constructor
    · rintro ⟨e, he, h⟩
      rw [hlook]
      exact (ih hrest he).1 h
    · intro h
      -- the draft in between takes one member of the new draft and the others of the old
      obtain ⟨e, he⟩ := Drafts.mix (Function.update look key (some v)) hd h fun k => by
        by_cases hkey : k = key
        · right
          rw [hkey, Function.update_self, Entries.lookup_cons, if_pos rfl]
          rfl
        · left
          exact Function.update_of_ne hkey _ _
      exact ⟨e, he, (ih hrest he).2 (hlook ▸ h)⟩

theorem decodeObject_eq_ok_iff {fs : Fields ρ δ} {members : Entries Json} {r : ρ}
    (hk : fs.keys.Nodup) (hm : (members.map Prod.fst).Nodup) :
    fs.decodeObject members = .ok r ↔ fs.Reads (members.lookup ·) r := by
  have hlook : (fun key => (members.lookup key).or none) = (members.lookup ·) := by
    funext key
    exact Option.or_none
  rw [decodeObject, reads_iff, bind_eq_ok]
  simp only [mapError_eq_ok, foldlM_meet_eq_ok_iff hk hm fs.drafts_blank, hlook]

theorem lookup_encode_cons {α : Type} (f : Field α) (rest : Fields ρ δ) (x : α) (r : ρ)
    (key : String) :
    ((Fields.cons f rest).encode (x, r)).lookup key =
      if key = f.key ∧ f.leaveOut x = false then some (f.codec.encode x)
      else (rest.encode r).lookup key := by
  cases hx : f.leaveOut x with
  | true => simp [encode, hx]
  | false => simp [encode, hx, Entries.lookup_cons]

theorem keys_encode_sublist (fs : Fields ρ δ) (r : ρ) :
    ((fs.encode r).map Prod.fst).Sublist fs.keys := by
  induction fs with
  | nil => exact List.Sublist.refl _
  | cons f rest ih =>
    obtain ⟨x, r⟩ := r
    simp only [encode, keys]
    split
    · exact (ih r).cons f.key
    · exact (ih r).cons_cons f.key

theorem lookup_encode_eq_none {fs : Fields ρ δ} {key : String} (h : key ∉ fs.keys) (r : ρ) :
    (fs.encode r).lookup key = none :=
  Entries.lookup_eq_none_iff.2 fun hmem => h ((fs.keys_encode_sublist r).subset hmem)

theorem reads_encode_iff {fs : Fields ρ δ} (hk : fs.keys.Nodup) (r s : ρ) :
    fs.Reads ((fs.encode r).lookup ·) s ↔ fs.Keeps r s := by
  induction fs with
  | nil => rfl
  | cons f rest ih =>
    obtain ⟨x, r⟩ := r
    obtain ⟨y, s⟩ := s
    obtain ⟨hfresh, hrest⟩ := List.nodup_cons.1 hk
    have hothers : rest.Reads (((Fields.cons f rest).encode (x, r)).lookup ·) s ↔
        rest.Reads ((rest.encode r).lookup ·) s := by
      apply Reads.congr
      intro key hmem
      have hne : key ≠ f.key := fun h => hfresh (h ▸ hmem)
      rw [lookup_encode_cons, if_neg fun h => hne h.1]
    rw [Reads, Keeps, hothers, ih hrest, lookup_encode_cons, lookup_encode_eq_none hfresh]
    unfold Field.Keeps
    cases f.leaveOut x <;> simp

variable {α : Type} {ofRow : ρ → α} {toRow : α → ρ} {name : String}

theorem nodup_keys_encode {fs : Fields ρ δ} (hk : fs.keys.Nodup) (r : ρ) :
    ((fs.encode r).map Prod.fst).Nodup :=
  (fs.keys_encode_sublist r).nodup hk

theorem decode_encode {fs : Fields ρ δ} (hk : fs.keys.Nodup) {x : α} {r : ρ}
    (h : fs.Keeps (toRow x) r) :
    (fs.codec name ofRow toRow).decode ((fs.codec name ofRow toRow).encode x) = .ok (ofRow r) := by
  have hread : fs.decodeObject (Entries.sorted (fs.encode (toRow x))) = .ok r := by
    rw [decodeObject_eq_ok_iff hk (Entries.ascending_sorted _).nodup_keys]
    simp only [Entries.lookup_sorted (nodup_keys_encode hk _)]
    exact (reads_encode_iff hk _ _).2 h
  simp only [codec, Json.object, hread, Except.map]

theorem decode_encode_self {fs : Fields ρ δ} (hk : fs.keys.Nodup) {x : α}
    (hinv : ofRow (toRow x) = x) (h : fs.Keeps (toRow x) (toRow x)) :
    (fs.codec name ofRow toRow).decode ((fs.codec name ofRow toRow).encode x) = .ok x := by
  rw [decode_encode hk h, hinv]

/-- A record is read off the members of an object, each field from the member under its key. -/
theorem decode_obj_eq_ok_iff {fs : Fields ρ δ} (hk : fs.keys.Nodup) {members : Entries Json}
    (hm : (members.map Prod.fst).Nodup) {x : α} :
    (fs.codec name ofRow toRow).decode (.obj members) = .ok x ↔
      ∃ r, fs.Reads (members.lookup ·) r ∧ ofRow r = x := by
  simp only [codec, map_eq_ok, decodeObject_eq_ok_iff hk hm]

theorem Reads.cons {α : Type} {f : Field α} {rest : Fields ρ δ} {look : String → Option Json}
    {v : Option Json} {x : α} {r : ρ} (hr : rest.Reads look r) (hfresh : f.key ∉ rest.keys)
    (hx : f.Takes v x) : ∃ look, (Fields.cons f rest).Reads look (x, r) := by
  refine ⟨Function.update look f.key v, ?_, (Reads.congr fun key hmem => ?_).1 hr⟩
  · rwa [Function.update_self]
  · rw [Function.update_of_ne]
    rintro rfl
    exact hfresh hmem

/-- Members in any order, of which the last under each key counts. -/
theorem exists_reads_of_decodeObject {fs : Fields ρ δ} (hk : fs.keys.Nodup)
    {members : Entries Json} {r : ρ} (h : fs.decodeObject members = .ok r) :
    ∃ look, fs.Reads look r := by
  obtain ⟨d, hd, hcomplete⟩ := bind_eq_ok.1 h
  obtain ⟨look, hlook⟩ : ∃ look, fs.Drafts look d := by
    refine foldlM_invariant (p := fun d => ∃ look, fs.Drafts look d) ?_ ⟨_, fs.drafts_blank⟩ hd
    rintro m - b b' ⟨look, hb⟩ hmeet
    exact ⟨_, (meet_eq_ok_iff hk hb).1 hmeet⟩
  exact ⟨look, (reads_iff fs look r).2 ⟨d, hlook, mapError_eq_ok.1 hcomplete⟩⟩

theorem exists_reads_of_ofItems {fs : Fields ρ δ} (hk : fs.keys.Nodup) {name : String}
    {total seen : Nat} {items left : List Json} {r : ρ}
    (h : fs.ofItems name total seen items = .ok (r, left)) : ∃ look, fs.Reads look r := by
  induction fs generalizing seen items left with
  | nil => exact ⟨fun _ => none, trivial⟩
  | cons f rest ih =>
    obtain ⟨x, r⟩ := r
    obtain ⟨hfresh, hrest⟩ := List.nodup_cons.1 hk
    cases items with
    | nil =>
      simp only [ofItems] at h
      split at h
      · next y hy =>
        obtain ⟨⟨s, left'⟩, hs, heq⟩ := bind_eq_ok.1 h
        cases heq
        obtain ⟨look, hlook⟩ := ih hrest hs
        exact hlook.cons hfresh (v := none) hy
      · cases h
    | cons v items =>
      obtain ⟨y, hy, hbind⟩ := bind_eq_ok.1 h
      obtain ⟨⟨s, left'⟩, hs, heq⟩ := bind_eq_ok.1 hbind
      cases heq
      obtain ⟨look, hlook⟩ := ih hrest hs
      exact hlook.cons hfresh (v := some v) hy

theorem none_left_iff {ε γ : Type} {x : Except ε (ρ × List γ)} {e : ε} {r : ρ} :
    (do
      let (r, left) ← x
      if left.isEmpty then return r else throw e) = Except.ok r ↔
      ∃ left, x = .ok (r, left) ∧ left.isEmpty := by
  rcases x with e' | ⟨r', left⟩
  · simp [bind, Except.bind]
  · cases left <;> simp [bind, Except.bind, pure, Except.pure, throw, throwThe, MonadExceptOf.throw]

/-- A record that is decoded from any value has each field from some value or by default. -/
theorem exists_reads_of_decode {fs : Fields ρ δ} (hk : fs.keys.Nodup) {v : Json} {x : α}
    (h : (fs.codec name ofRow toRow).decode v = .ok x) :
    ∃ look r, fs.Reads look r ∧ ofRow r = x := by
  cases v with
  | obj members =>
    obtain ⟨r, hr, rfl⟩ := map_eq_ok.1 h
    obtain ⟨look, hlook⟩ := exists_reads_of_decodeObject hk hr
    exact ⟨look, r, hlook, rfl⟩
  | arr items =>
    obtain ⟨r, hr, rfl⟩ := map_eq_ok.1 h
    obtain ⟨left, hitems, -⟩ := none_left_iff.1 hr
    obtain ⟨look, hlook⟩ := exists_reads_of_ofItems hk hitems
    exact ⟨look, r, hlook, rfl⟩
  | _ => cases h

theorem member?_encode {fs : Fields ρ δ} (hk : fs.keys.Nodup) (x : α) (key : String) :
    ((fs.codec name ofRow toRow).encode x).member? key = (fs.encode (toRow x)).lookup key :=
  Entries.lookup_sorted (nodup_keys_encode hk _)

end Fields

end ResourceTable
