import Mathlib.Algebra.Group.Nat.Basic
import Mathlib.Algebra.Group.Int
import Mathlib.Data.List.AList
import Mathlib.Data.List.Perm.Subperm

/-!
# Identifiers, caches and map iteration

The reporter keys its caches by identifiers of the `libpf` package, which is not part of this
repository. The model keeps the hash types abstract and takes the three string conversions the
reporter calls as given, so every result holds whatever those conversions are.

A cache (`lru.SyncedLRU`) is an association list. Each of its operations is one atomic step.
`StartOTLP` and `NewParcaSymbolUploader` give every cache a capacity (`cacheSize`) and a full
cache evicts its least recently used key; the association list has no capacity and never evicts.
It stands for a cache in the regime where no key is evicted, that is, while fewer than
`cacheSize` keys have been written to it, and every result about these caches holds of the
source for runs in that regime. The host metadata cache, whose eviction a result is about, is
modelled with its capacity (`Reporter.SyncedLRU`). Go leaves the order of a `range` over a `map`
unspecified, and `MapOrder` makes that choice an input of a run.
-/

namespace ProfilingAgent

/-- `libpf.AddressOrLineno`: a virtual address or an interpreter line number. -/
abbrev AddressOrLineno := UInt64

/-- `libpf.SourceLineno`. -/
abbrev SourceLineno := UInt64

/-- `libpf.FrameType`. The reporter's `switch` tells apart native, kernel and abort frames; every
other frame type (the interpreters, and the unknown and error markers) takes its `default`
branch. -/
inductive FrameType where
  | nativeFrame
  | kernelFrame
  | abortFrame
  | other (marker : Int)
  deriving DecidableEq, Repr

/-- `libpf.FrameID`: a file and an address in it. -/
structure FrameID (FileID : Type) where
  fileID : FileID
  addressOrLine : AddressOrLineno
  deriving DecidableEq, Repr

/-- `libpf.NewFrameID`. -/
def newFrameID {FileID : Type} (fileID : FileID) (addressOrLine : AddressOrLineno) :
    FrameID FileID :=
  ⟨fileID, addressOrLine⟩

/-- The `libpf` conversions to text that the reporter calls. -/
structure Libpf (TraceHash FileID : Type) where
  /-- `TraceHash.StringNoQuotes` -/
  traceHashString : TraceHash → String
  /-- `FileID.StringNoQuotes` -/
  fileIDString : FileID → String
  /-- `FrameType.String` -/
  frameTypeString : FrameType → String

/-- Conversions for hashes and file IDs that are numbers, written in decimal. -/
def Libpf.decimal : Libpf Nat Nat where
  traceHashString := toString
  fileIDString := toString
  frameTypeString
    | .nativeFrame => "native"
    | .kernelFrame => "kernel"
    | .abortFrame => "abort-marker"
    | .other _ => "interpreted"

/-- A key-value cache, or a Go `map`, as an association list with distinct keys. -/
abbrev Cache (K V : Type) := AList (fun _ : K => V)

namespace Cache

variable {K V : Type} [DecidableEq K]

/-- `len(m)` of a map is the length of its entry list. -/
theorem length_insert_of_lookup_eq_none {m : Cache K V} {k : K} {v : V}
    (hnone : m.lookup k = none) : (m.insert k v).entries.length = m.entries.length + 1 := by
  rw [AList.insert_entries_of_neg (AList.lookup_eq_none.mp hnone), List.length_cons]

/-- `Add` on a cache whose order of keys is read (`Keys` lists them from the least to the most
recently used): the key moves to the most recently used end, the last, holding the value. -/
def putBack (m : Cache K V) (k : K) (v : V) : Cache K V :=
  m.erase k ∪ AList.singleton k v

example : (((∅ : Cache Nat Nat).putBack 1 10).putBack 2 20 |>.putBack 1 30).entries =
    [⟨2, 20⟩, ⟨1, 30⟩] := by
  decide

/-- Every entry of `m` is still in `m'` with the same value. -/
def Extends (m m' : Cache K V) : Prop :=
  ∀ ⦃k : K⦄ ⦃v : V⦄, m.lookup k = some v → m'.lookup k = some v

theorem Extends.refl (m : Cache K V) : Extends m m := fun _ _ h => h

theorem Extends.trans {m m' m'' : Cache K V} (h : Extends m m') (h' : Extends m' m'') :
    Extends m m'' :=
  fun _ _ hk => h' (h hk)

theorem extends_insert {m : Cache K V} {k : K} {v : V} (hnone : m.lookup k = none) :
    Extends m (m.insert k v) := by
  intro k' v' hk'
  have hne : k' ≠ k := by rintro rfl; simp [hnone] at hk'
  simpa [AList.lookup_insert_ne hne] using hk'

theorem extends_erase (m : Cache K V) (k : K) : Extends (m.erase k) m := by
  intro k' v' hk'
  by_cases hne : k' = k
  · rw [hne, AList.lookup_erase] at hk'
    cases hk'
  · rwa [AList.lookup_erase_ne hne] at hk'

/-- A map that keeps every entry of another has at least as many entries. -/
theorem Extends.length_le {m m' : Cache K V} (h : Extends m m') :
    m.entries.length ≤ m'.entries.length := by
  have hsub : m.keys.Subperm m'.keys := m.keys_nodup.subperm fun k hk => by
    obtain ⟨v, hv⟩ := Option.isSome_iff_exists.mp (AList.lookup_isSome.mpr (AList.mem_keys.mpr hk))
    exact AList.mem_keys.mp (AList.lookup_isSome.mp (by simp [h hv]))
  simpa [AList.keys, List.keys] using hsub.length_le

end Cache

/-- An `Option` traversal succeeds exactly when every element does. -/
theorem mapM_eq_some_iff_forall₂ {α β : Type*} {f : α → Option β} :
    ∀ {l : List α} {l' : List β}, l.mapM f = some l' ↔ List.Forall₂ (fun a b => f a = some b) l l'
  | [], l' => by
    rw [List.mapM_nil]
    cases l' <;> simp
  | a :: l, l' => by
    rw [List.mapM_cons]
    cases hfa : f a with
    | none => cases l' <;> simp [hfa]
    | some b =>
      cases l' with
      | nil => cases l.mapM f <;> simp
      | cons b' l' =>
        rw [List.forall₂_cons, ← mapM_eq_some_iff_forall₂ (l := l)]
        cases l.mapM f <;> simp [hfa, eq_comm]

theorem mapM_isSome_of_forall {α β : Type} {f : α → Option β} :
    ∀ {l : List α}, (∀ a ∈ l, (f a).isSome) → (l.mapM f).isSome
  | [], _ => by rw [List.mapM_nil]; rfl
  | a :: l, h => by
    obtain ⟨b, hb⟩ := Option.isSome_iff_exists.mp (h a (List.mem_cons_self _ _))
    obtain ⟨bs, hbs⟩ := Option.isSome_iff_exists.mp
      (mapM_isSome_of_forall fun a' ha' => h a' (List.mem_cons_of_mem _ ha'))
    rw [List.mapM_cons, hb, hbs]
    rfl

/-- An `Option` traversal keeps every result when every element has one, and fails otherwise. -/
theorem mapM_eq_ite {α β : Type} (f : α → Option β) :
    ∀ l : List α, l.mapM f = if ∀ a ∈ l, (f a).isSome then some (l.filterMap f) else none
  | [] => by rw [List.mapM_nil]; simp
  | a :: l => by
    rw [List.mapM_cons, mapM_eq_ite f l]
    cases hfa : f a with
    | none => simp [hfa]
    | some b =>
      by_cases hl : ∀ a ∈ l, (f a).isSome
      · rw [if_pos hl, if_pos (List.forall_mem_cons.mpr ⟨by simp [hfa], hl⟩), List.filterMap_cons,
          hfa]
        rfl
      · simp [hfa, hl]

theorem exists_of_mem_of_forall₂ {α β : Type} {R : α → β → Prop} {l : List α} {l' : List β}
    (h : List.Forall₂ R l l') : ∀ a ∈ l, ∃ b ∈ l', R a b := by
  induction h with
  | nil => simp
  | cons hr _ ih =>
    rintro a (_ | ⟨_, ha⟩)
    · exact ⟨_, List.mem_cons_self _ _, hr⟩
    · obtain ⟨b, hb, hab⟩ := ih a ha
      exact ⟨b, List.mem_cons_of_mem _ hb, hab⟩

/-- Lists related element by element are related at every index. -/
theorem forall₂_getElem? {α β : Type} {R : α → β → Prop} :
    ∀ {l : List α} {l' : List β}, List.Forall₂ R l l' →
      ∀ {j : Nat} {a : α}, l[j]? = some a → ∃ b, l'[j]? = some b ∧ R a b
  | _, _, .nil, _, _, h => by simp at h
  | _, _, .cons hr _, 0, _, h => by
    rw [List.getElem?_cons_zero, Option.some.injEq] at h
    exact ⟨_, List.getElem?_cons_zero, h ▸ hr⟩
  | _, _, .cons _ hrs, _ + 1, _, h => by
    rw [List.getElem?_cons_succ] at h ⊢
    exact forall₂_getElem? hrs h

/-- Two lists related element by element to one list are related to each other through it. -/
theorem forall₂_join {α β γ : Type} {R : α → γ → Prop} {S : β → γ → Prop} :
    ∀ {l₁ : List α} {l₂ : List β} {cs : List γ}, List.Forall₂ R l₁ cs → List.Forall₂ S l₂ cs →
      List.Forall₂ (fun a b => ∃ c, R a c ∧ S b c) l₁ l₂
  | _, _, _, .nil, .nil => .nil
  | _, _, _, .cons hr hrs, .cons hs hss => .cons ⟨_, hr, hs⟩ (forall₂_join hrs hss)

/-- A relation along two lists takes in a property every right-hand element has. -/
theorem forall₂_and_mem_right {α β : Type} {R : α → β → Prop} {P : β → Prop} :
    ∀ {l₁ : List α} {l₂ : List β}, List.Forall₂ R l₁ l₂ → (∀ b ∈ l₂, P b) →
      List.Forall₂ (fun a b => R a b ∧ P b) l₁ l₂
  | _, _, .nil, _ => .nil
  | _, _, .cons hr hrs, hp => .cons ⟨hr, hp _ (List.mem_cons_self _ _)⟩
      (forall₂_and_mem_right hrs fun b hb => hp b (List.mem_cons_of_mem _ hb))

/-- One choice of the order in which a `range` over a Go `map` visits the map's entries: any
permutation of them. -/
structure MapOrder where
  arrange : {α : Type} → List α → List α
  perm : ∀ {α : Type} (l : List α), (arrange l).Perm l

/-- The order in which the association list holds the entries. -/
def MapOrder.stored : MapOrder := ⟨id, fun l => List.Perm.refl l⟩

/-- The reverse of the order in which the association list holds the entries. -/
def MapOrder.reversed : MapOrder := ⟨List.reverse, List.reverse_perm⟩

end ProfilingAgent
