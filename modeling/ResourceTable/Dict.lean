namespace ResourceTable

abbrev Entries (α : Type) := List (String × α)

namespace Entries

variable {α : Type}

/-- The keys are strictly ascending, in the order of their UTF-8 bytes too. -/
def Ascending (es : Entries α) : Prop := es.Pairwise fun a b => a.1 < b.1

/-- Puts a value under a key, in place of the one that stood there. -/
def put (key : String) (value : α) : Entries α → Entries α
  | [] => [(key, value)]
  | (k, v) :: rest =>
    if key < k then (key, value) :: (k, v) :: rest
    else if key = k then (key, value) :: rest
    else (k, v) :: put key value rest

/-- The entries in ascending order; of several under one key the last is kept. -/
def sorted (es : Entries α) : Entries α := es.foldl (fun acc e => acc.put e.1 e.2) []

theorem lookup_cons (k l : String) (v : α) (es : Entries α) :
    List.lookup k ((l, v) :: es) = if k = l then some v else es.lookup k := by
  by_cases h : k = l
  · simp [h]
  · simp [List.lookup_cons, beq_false_of_ne h, h]

theorem lookup_put (es : Entries α) (key : String) (value : α) (k : String) :
    (es.put key value).lookup k = if k = key then some value else es.lookup k := by
  induction es with
  | nil => rw [put, lookup_cons]
  | cons head rest ih =>
    obtain ⟨l, v⟩ := head
    simp only [put]
    split
    · rw [lookup_cons]
    · split
      · next heq => subst heq; grind [lookup_cons]
      · next hne => rw [lookup_cons, ih, lookup_cons]; grind

theorem mem_put {key : String} {value : α} {es : Entries α} {e : String × α}
    (h : e ∈ es.put key value) : e = (key, value) ∨ e ∈ es := by
  induction es with
  | nil => exact .inl (List.mem_singleton.1 h)
  | cons head rest ih =>
    obtain ⟨k, v⟩ := head
    simp only [put] at h
    split at h
    · simpa using h
    · split at h
      · rcases List.mem_cons.1 h with h | h
        · exact .inl h
        · exact .inr (List.mem_cons_of_mem _ h)
      · rcases List.mem_cons.1 h with h | h
        · exact .inr (h ▸ List.mem_cons_self)
        · exact (ih h).imp_right (List.mem_cons_of_mem _)

theorem Ascending.put {es : Entries α} (h : es.Ascending) (key : String) (value : α) :
    (es.put key value).Ascending := by
  induction es with
  | nil => exact List.pairwise_singleton _ _
  | cons head rest ih =>
    obtain ⟨k, v⟩ := head
    have hr := List.pairwise_cons.1 h
    simp only [Entries.put]
    split
    · next hlt =>
      refine List.pairwise_cons.2 ⟨fun e he => ?_, h⟩
      rcases List.mem_cons.1 he with rfl | he
      · exact hlt
      · exact String.lt_trans hlt (hr.1 e he)
    · next hnot =>
      split
      · next heq => subst heq; exact List.pairwise_cons.2 hr
      · next hne =>
        refine List.pairwise_cons.2 ⟨fun e he => ?_, ih hr.2⟩
        rcases mem_put he with rfl | he
        · exact Std.lt_of_le_of_ne (String.not_lt.1 hnot) (Ne.symm hne)
        · exact hr.1 e he

theorem put_of_lt {key : String} {value : α} {es : Entries α} (h : ∀ e ∈ es, e.1 < key) :
    es.put key value = es ++ [(key, value)] := by
  induction es with
  | nil => rfl
  | cons head rest ih =>
    have hk := h head List.mem_cons_self
    rw [put, if_neg (String.lt_asymm hk), if_neg (fun e => String.lt_irrefl _ (e ▸ hk)),
      ih fun e he => h e (List.mem_cons_of_mem _ he)]
    rfl

theorem sorted_of_ascending {es : Entries α} (h : es.Ascending) : es.sorted = es := by
  suffices ∀ (es acc : Entries α), (acc ++ es).Pairwise (fun a b => a.1 < b.1) →
      es.foldl (fun acc e => acc.put e.1 e.2) acc = acc ++ es from this es [] h
  intro es
  induction es with
  | nil => intro acc _; simp
  | cons e es ih =>
    intro acc ha
    have hlt : ∀ x ∈ acc, x.1 < e.1 := fun x hx =>
      (List.pairwise_append.1 ha).2.2 x hx e List.mem_cons_self
    have hap : acc ++ e :: es = (acc ++ [(e.1, e.2)]) ++ es := by simp
    rw [List.foldl_cons, put_of_lt hlt, ih _ (hap ▸ ha), ← hap]

theorem ascending_sorted (es : Entries α) : es.sorted.Ascending := by
  suffices ∀ (es acc : Entries α), acc.Ascending →
      (es.foldl (fun acc e => acc.put e.1 e.2) acc).Ascending from this es [] List.Pairwise.nil
  intro es
  induction es with
  | nil => exact fun _ h => h
  | cons e es ih => exact fun acc h => ih _ (h.put e.1 e.2)

end Entries

structure Dict (α : Type) where
  entries : Entries α
  ascending : entries.Ascending
  deriving DecidableEq

namespace Dict

variable {α : Type}

def empty : Dict α := ⟨[], List.Pairwise.nil⟩

def get? (d : Dict α) (key : String) : Option α := d.entries.lookup key

def insert (d : Dict α) (key : String) (value : α) : Dict α :=
  ⟨d.entries.put key value, d.ascending.put key value⟩

theorem get?_insert (d : Dict α) (key : String) (value : α) (k : String) :
    (d.insert key value).get? k = if k = key then some value else d.get? k :=
  Entries.lookup_put d.entries key value k

def isEmpty (d : Dict α) : Bool := d.entries.isEmpty

def ofList (es : Entries α) : Dict α := ⟨es.sorted, es.ascending_sorted⟩

theorem ofList_entries (d : Dict α) : ofList d.entries = d := by
  obtain ⟨es, h⟩ := d
  simp only [ofList, Entries.sorted_of_ascending h]

end Dict

end ResourceTable
