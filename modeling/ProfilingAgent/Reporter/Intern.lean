import ProfilingAgent.Reporter.State

/-!
# Deduplicating tables

`getProfile` builds its string table and its function table through two maps from a value to
the index it was first given: `getStringMapIndex` and `createFunctionEntry` look the value up
and, on a miss, give it `len(map)`. At the end a loop over the map writes each value into a
slice of `len(map)` slots at its index.

`Dense` is the invariant that makes that loop sound: the indices in use are exactly
`0, …, len(map) - 1`, each given to one value. It holds of the initial maps and every
look-up-or-append keeps it, so the loop writes every slot once and never out of range.
-/

namespace ProfilingAgent.Reporter

section Intern

variable {α : Type} [DecidableEq α]

/-- The look-up-or-append step shared by `getStringMapIndex` and `createFunctionEntry`: a value
in the map keeps its index, a new value is given `len(m)`. -/
def internIndex (m : Cache α Nat) (key : α) : Nat × Cache α Nat :=
  match m.lookup key with
  | some idx => (idx, m)
  | none => (m.entries.length, m.insert key m.entries.length)

/-- `getStringMapIndex` -/
def getStringMapIndex (stringMap : Cache String Nat) (value : String) :
    Nat × Cache String Nat :=
  internIndex stringMap value

/-- `createFunctionEntry` -/
def createFunctionEntry (funcMap : Cache FuncInfo Nat) (name fileName : String) :
    Nat × Cache FuncInfo Nat :=
  internIndex funcMap ⟨name, fileName⟩

theorem internIndex_of_lookup {m : Cache α Nat} {key : α} {i : Nat}
    (hkey : m.lookup key = some i) : internIndex m key = (i, m) := by
  simp [internIndex, hkey]

theorem internIndex_of_lookup_eq_none {m : Cache α Nat} {key : α}
    (hkey : m.lookup key = none) :
    internIndex m key = (m.entries.length, m.insert key m.entries.length) := by
  simp [internIndex, hkey]

@[simp]
theorem lookup_internIndex (m : Cache α Nat) (key : α) :
    (internIndex m key).2.lookup key = some (internIndex m key).1 := by
  cases hkey : m.lookup key with
  | none => simp [internIndex_of_lookup_eq_none hkey]
  | some i => simp [internIndex_of_lookup hkey, hkey]

theorem lookup_internIndex_of_ne (m : Cache α Nat) {key k : α} (hne : k ≠ key) :
    (internIndex m key).2.lookup k = m.lookup k := by
  cases hkey : m.lookup key with
  | none => simp [internIndex_of_lookup_eq_none hkey, AList.lookup_insert_ne hne]
  | some i => simp [internIndex_of_lookup hkey]

/-- The only entry a look-up-or-append can add is the key with the index it returns. -/
theorem lookup_internIndex_cases (m : Cache α Nat) (key : α) {k : α} {i : Nat}
    (hk : (internIndex m key).2.lookup k = some i) :
    m.lookup k = some i ∨ k = key ∧ i = (internIndex m key).1 := by
  by_cases heq : k = key
  · subst heq
    rw [lookup_internIndex, Option.some.injEq] at hk
    exact .inr ⟨rfl, hk.symm⟩
  · rw [lookup_internIndex_of_ne m heq] at hk
    exact .inl hk

theorem extends_internIndex (m : Cache α Nat) (key : α) :
    Cache.Extends m (internIndex m key).2 := by
  cases hkey : m.lookup key with
  | none => simpa [internIndex_of_lookup_eq_none hkey] using Cache.extends_insert hkey
  | some i => simpa [internIndex_of_lookup hkey] using Cache.Extends.refl m

/-- The table invariant: the indices in use are `0, …, len(m) - 1`, each given to one value. -/
structure Dense (m : Cache α Nat) : Prop where
  lookup_lt : ∀ ⦃k : α⦄ ⦃i : Nat⦄, m.lookup k = some i → i < m.entries.length
  lookup_inj : ∀ ⦃k k' : α⦄ ⦃i : Nat⦄, m.lookup k = some i → m.lookup k' = some i → k = k'
  exists_lookup : ∀ i < m.entries.length, ∃ k, m.lookup k = some i

theorem dense_empty : Dense (∅ : Cache α Nat) :=
  ⟨by simp, by simp, by simp⟩

theorem lookup_insert_length (m : Cache α Nat) (key k : α) :
    (m.insert key m.entries.length).lookup k =
      if k = key then some m.entries.length else m.lookup k := by
  split
  · subst k; simp
  · exact AList.lookup_insert_ne ‹_›

/-- Every look-up-or-append keeps the table invariant. -/
theorem Dense.intern {m : Cache α Nat} (hm : Dense m) (key : α) :
    Dense (internIndex m key).2 := by
  cases hkey : m.lookup key with
  | some i => simpa [internIndex_of_lookup hkey] using hm
  | none =>
    rw [internIndex_of_lookup_eq_none hkey]
    show Dense (m.insert key m.entries.length)
    have hlen : (m.insert key m.entries.length).entries.length = m.entries.length + 1 :=
      Cache.length_insert_of_lookup_eq_none hkey
    refine ⟨fun k i hk => ?_, fun k k' i hk hk' => ?_, fun i hi => ?_⟩
    · rw [lookup_insert_length] at hk
      split at hk
      · cases hk; omega
      · have := hm.lookup_lt hk; omega
    · rw [lookup_insert_length] at hk hk'
      split at hk <;> split at hk'
      · simp_all
      · cases hk; exact absurd (hm.lookup_lt hk') (by omega)
      · cases hk'; exact absurd (hm.lookup_lt hk) (by omega)
      · exact hm.lookup_inj hk hk'
    · rcases Nat.lt_succ_iff_lt_or_eq.mp (hlen ▸ hi) with hi | rfl
      · obtain ⟨k, hk⟩ := hm.exists_lookup i hi
        have hne : k ≠ key := by rintro rfl; simp [hkey] at hk
        exact ⟨k, by rw [lookup_insert_length, if_neg hne, hk]⟩
      · exact ⟨key, by simp⟩

theorem dense_singleton (key : α) : Dense ((∅ : Cache α Nat).insert key 0) := by
  have h := (dense_empty : Dense (∅ : Cache α Nat)).intern key
  rwa [internIndex_of_lookup_eq_none (AList.lookup_empty key)] at h

theorem Dense.internIndex_lt {m : Cache α Nat} (hm : Dense m) (key : α) :
    (internIndex m key).1 < (internIndex m key).2.entries.length :=
  (hm.intern key).lookup_lt (lookup_internIndex m key)

theorem length_le_internIndex (m : Cache α Nat) (key : α) :
    m.entries.length ≤ (internIndex m key).2.entries.length := by
  cases hkey : m.lookup key with
  | none =>
    rw [internIndex_of_lookup_eq_none hkey]
    exact (Cache.length_insert_of_lookup_eq_none hkey).symm ▸ Nat.le_succ _
  | some i => simp [internIndex_of_lookup hkey]

/-- Under the invariant the indices of the entries are distinct. -/
theorem Dense.nodup_indices {m : Cache α Nat} (hm : Dense m) :
    (m.entries.map Sigma.snd).Nodup := by
  refine m.nodupKeys.nodup.map_on fun e he e' he' heq => ?_
  have hk : m.lookup e.1 = some e.2 := AList.mem_lookup_iff.mpr he
  have hk' : m.lookup e'.1 = some e.2 := heq ▸ AList.mem_lookup_iff.mpr he'
  exact Sigma.ext (hm.lookup_inj hk hk') (heq_of_eq heq)

/-- A table whose slot `i` holds a value related by `R` to the key at index `i` of a dense map
holds no value twice, when no value is related to two keys. -/
theorem Dense.nodup_table {β : Type} {m : Cache α Nat} (hm : Dense m) {table : List β}
    (R : α → β → Prop) (hlen : table.length = m.entries.length)
    (hat : ∀ ⦃k : α⦄ ⦃i : Nat⦄, m.lookup k = some i → ∃ b, table[i]? = some b ∧ R k b)
    (hinj : ∀ ⦃k k' : α⦄ ⦃b : β⦄, R k b → R k' b → k = k') : table.Nodup := by
  refine List.nodup_iff_getElem?_ne_getElem?.mpr fun i j hij hj heq => ?_
  obtain ⟨k, hk⟩ := hm.exists_lookup i (hlen ▸ hij.trans hj)
  obtain ⟨k', hk'⟩ := hm.exists_lookup j (hlen ▸ hj)
  obtain ⟨b, hb, hkb⟩ := hat hk
  obtain ⟨b', hb', hkb'⟩ := hat hk'
  obtain rfl : b = b' := Option.some.inj (hb.symm.trans (heq.trans hb'))
  obtain rfl := hinj hkb hkb'
  exact hij.ne (Option.some.inj (hk.symm.trans hk'))

/-- Under the invariant every slot `i < len(m)` belongs to exactly one key. -/
theorem Dense.existsUnique_lookup {m : Cache α Nat} (hm : Dense m) {i : Nat}
    (hi : i < m.entries.length) : ∃! k, m.lookup k = some i :=
  let ⟨k, hk⟩ := hm.exists_lookup i hi
  ⟨k, hk, fun _ hk' => hm.lookup_inj hk' hk⟩

/-- A sequence of calls of a look-up-or-append function: the index each call returns, and the map
after them. -/
def callAll {β : Type} (call : Cache α Nat → β → Nat × Cache α Nat) (m : Cache α Nat) :
    List β → List Nat × Cache α Nat
  | [] => ([], m)
  | arg :: args =>
    ((call m arg).1 :: (callAll call (call m arg).2 args).1, (callAll call (call m arg).2 args).2)

/-- Every sequence of look-ups-or-appends keeps the invariant, keeps every key at the index it
had, and each call returns the index its key holds at the end. -/
theorem callAll_internIndex {m : Cache α Nat} (hm : Dense m) (keys : List α) :
    Dense (callAll internIndex m keys).2 ∧ Cache.Extends m (callAll internIndex m keys).2 ∧
      List.Forall₂ (fun key i => (callAll internIndex m keys).2.lookup key = some i)
        keys (callAll internIndex m keys).1 := by
  induction keys generalizing m with
  | nil => exact ⟨hm, Cache.Extends.refl m, .nil⟩
  | cons key keys ih =>
    obtain ⟨hdense, hext, hcalls⟩ := ih (hm.intern key)
    exact ⟨hdense, (extends_internIndex m key).trans hext,
      .cons (hext (lookup_internIndex m key)) hcalls⟩

omit [DecidableEq α] in
theorem callAll_append {β : Type} (call : Cache α Nat → β → Nat × Cache α Nat) (m : Cache α Nat)
    (args args' : List β) :
    callAll call m (args ++ args') =
      ((callAll call m args).1 ++ (callAll call (callAll call m args).2 args').1,
        (callAll call (callAll call m args).2 args').2) := by
  induction args generalizing m with
  | nil => rfl
  | cons arg args ih => rw [List.cons_append]; simp only [callAll, ih, List.cons_append]

/-- After any prefix of a sequence of calls the map keeps the invariant, and the rest of the
sequence keeps every key at the index it had. -/
theorem callAll_prefix {m : Cache α Nat} (hm : Dense m) {pre post keys : List α}
    (h : pre ++ post = keys) :
    Dense (callAll internIndex m pre).2 ∧
      Cache.Extends (callAll internIndex m pre).2 (callAll internIndex m keys).2 := by
  subst h
  rw [callAll_append]
  exact ⟨(callAll_internIndex hm pre).1, (callAll_internIndex (callAll_internIndex hm pre).1 post).2.1⟩

end Intern

section Fill

variable {α σ β : Type}

/-- `table[idx] = v` on a Go slice, which panics when `idx` is out of range. -/
def setIndex? (table : List β) (idx : Nat) (v : β) : Option (List β) :=
  if idx < table.length then some (table.set idx v) else none

/-- The flatten loops of `getProfile`: in the map's iteration order, compute each key's slot
(which may intern strings into `state`) and store it at `table[idx]`. -/
def fillTable (entry : σ → α → β × σ) :
    List (Σ _ : α, Nat) → List β × σ → Option (List β × σ)
  | [], acc => some acc
  | e :: rest, (table, state) =>
    match setIndex? table e.2 (entry state e.1).1 with
    | some table => fillTable entry rest (table, (entry state e.1).2)
    | none => none

/-- Filling distinct in-range indices: the table keeps its length, slots no entry names are
untouched, and each entry's slot holds what was computed for it, at a state that the later
steps only extend (`R`). -/
theorem fillTable_spec (entry : σ → α → β × σ) (R : σ → σ → Prop) (hrefl : ∀ s, R s s)
    (htrans : ∀ {a b c}, R a b → R b c → R a c) (hstep : ∀ s k, R s (entry s k).2) :
    ∀ (L : List (Σ _ : α, Nat)) (table : List β) (state : σ), (L.map Sigma.snd).Nodup →
      (∀ e ∈ L, e.2 < table.length) →
      ∃ table' state', fillTable entry L (table, state) = some (table', state') ∧
        table'.length = table.length ∧ R state state' ∧
        (∀ i, i ∉ L.map Sigma.snd → table'[i]? = table[i]?) ∧
        (∀ e ∈ L, ∃ s₀, R (entry s₀ e.1).2 state' ∧ table'[e.2]? = some (entry s₀ e.1).1)
  | [], table, state, _, _ => ⟨table, state, rfl, rfl, hrefl state, fun _ _ => rfl, by simp⟩
  | e :: rest, table, state, hnodup, hlt => by
    rw [List.map_cons, List.nodup_cons] at hnodup
    have he : e.2 < table.length := hlt e (List.mem_cons_self _ _)
    obtain ⟨table', state', hfill, hlen, hR, huntouched, hwritten⟩ :=
      fillTable_spec entry R hrefl htrans hstep rest (table.set e.2 (entry state e.1).1)
        (entry state e.1).2 hnodup.2
        (fun e' he' => by simpa using hlt e' (List.mem_cons_of_mem _ he'))
    refine ⟨table', state', ?_, by simpa using hlen, htrans (hstep state e.1) hR, ?_, ?_⟩
    · simp [fillTable, setIndex?, he, hfill]
    · intro i hi
      rw [List.map_cons, List.mem_cons, not_or] at hi
      rw [huntouched i hi.2, List.getElem?_set, if_neg (Ne.symm hi.1)]
    · intro e' he'
      rcases List.mem_cons.mp he' with rfl | he'
      · refine ⟨state, hR, ?_⟩
        rw [huntouched _ hnodup.1, List.getElem?_set_self he]
      · exact hwritten e' he'

/-- A relation that every slot's computation establishes between its states holds between the
first and the last state of the loop. -/
theorem fillTable_state (entry : σ → α → β × σ) (P : σ → σ → Prop) (hrefl : ∀ s, P s s)
    (htrans : ∀ {a b c}, P a b → P b c → P a c) :
    ∀ (L : List (Σ _ : α, Nat)) (table table' : List β) (state state' : σ),
      (∀ e ∈ L, ∀ s, P s (entry s e.1).2) → fillTable entry L (table, state) = some (table', state') →
      P state state'
  | [], _, _, _, _, _, h => by cases h; exact hrefl _
  | e :: rest, table, table', state, state', hstep, h => by
    simp only [fillTable] at h
    split at h
    · exact htrans (hstep e (List.mem_cons_self _ _) state)
        (fillTable_state entry P hrefl htrans rest _ table' _ state'
          (fun e' he' => hstep e' (List.mem_cons_of_mem _ he')) h)
    · cases h

end Fill

/-- The `StringTable` loop of `getProfile`. -/
def flattenStrings (order : MapOrder) (stringMap : Cache String Nat) : Option (List String) :=
  (fillTable (fun (_ : Unit) value => (value, ())) (order.arrange stringMap.entries)
    (List.replicate stringMap.entries.length "", ())).map Prod.fst

/-- Under the invariant the string table has one slot per entry, and each string sits at its
index. -/
theorem flattenStrings_spec (order : MapOrder) {stringMap : Cache String Nat}
    (hdense : Dense stringMap) :
    ∃ table, flattenStrings order stringMap = some table ∧
      table.length = stringMap.entries.length ∧
      ∀ ⦃s : String⦄ ⦃i : Nat⦄, stringMap.lookup s = some i → table[i]? = some s := by
  have hperm := order.perm stringMap.entries
  obtain ⟨table, _, hfill, hlen, -, -, hwritten⟩ :=
    fillTable_spec (fun (_ : Unit) value => (value, ())) (fun _ _ => True) (fun _ => trivial)
      (fun _ _ => trivial) (fun _ _ => trivial) (order.arrange stringMap.entries)
      (List.replicate stringMap.entries.length "") ()
      ((hperm.map Sigma.snd).nodup_iff.mpr hdense.nodup_indices)
      (fun e he => by
        simpa using hdense.lookup_lt (AList.mem_lookup_iff.mpr (hperm.subset he)))
  refine ⟨table, by simp [flattenStrings, hfill], by simpa using hlen, fun s i hs => ?_⟩
  obtain ⟨_, -, hslot⟩ := hwritten ⟨s, i⟩ (hperm.symm.subset (AList.mem_lookup_iff.mp hs))
  exact hslot

end ProfilingAgent.Reporter
