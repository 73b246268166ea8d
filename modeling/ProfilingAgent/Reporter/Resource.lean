import ProfilingAgent.Reporter.State
import Mathlib.Data.PNat.Basic
import Mathlib.Data.List.Nodup

/-!
# The resource of a report

`getResource` takes one `Keys` snapshot of the host metadata cache, makes an attribute array one
slot longer than the snapshot, and fills it through one `Get` per key, skipping a key that `Get`
does not find; the `__name__` attribute goes into the first slot left free. A `nil` slot is
`none`.

While every `Get` finds its key the array is a filled prefix followed by `nil` slots, and the
name closes the prefix; this section proves that once, for one turn of the loop, and derives
what `getResource` returns on a cache nothing else touches.
-/

namespace ProfilingAgent.Reporter

/-- `common.KeyValue` with a string value, the only kind of attribute `getResource` builds. -/
structure KeyValue where
  key : String
  value : String
  deriving DecidableEq, Repr

/-- The attribute that names the profile type. -/
def nameAttribute : KeyValue := ⟨"__name__", "otel_profiling_agent_on_cpu"⟩

/-- The array `getResource` makes from its snapshot, `make([]*common.KeyValue, len(keys)+1)`,
and the next free slot `i := 0`. -/
def emptyAttributes (keys : List String) : List (Option KeyValue) × Nat :=
  (List.replicate (keys.length + 1) none, 0)

/-- One turn of the loop over the snapshot, given what `Get` returned for the key: a value fills
slot `i` and moves `i` on, a miss is skipped. -/
def fillAttribute (acc : List (Option KeyValue) × Nat) (key : String) :
    Option String → List (Option KeyValue) × Nat
  | some v => (acc.1.set acc.2 (some ⟨key, v⟩), acc.2 + 1)
  | none => acc

/-- The end of `getResource`: the name goes into slot `i`. -/
def nameAttributes (acc : List (Option KeyValue) × Nat) : List (Option KeyValue) :=
  acc.1.set acc.2 (some nameAttribute)

/-- `getResource` on a cache that no other call touches while it runs. -/
def getResource (hostmetadata : Cache String String) : List (Option KeyValue) :=
  nameAttributes (hostmetadata.keys.foldl
    (fun acc key => fillAttribute acc key (hostmetadata.lookup key))
    (emptyAttributes hostmetadata.keys))

/-- The attribute of a cache entry. -/
def entryAttribute (e : Σ _ : String, String) : Option KeyValue := some ⟨e.1, e.2⟩

/-! ### A filled prefix and `nil` slots -/

/-- A value found fills the first `nil` slot after the prefix. -/
theorem fillAttribute_some (filled : List (Option KeyValue)) {i : Nat} (hi : i = filled.length)
    (r : Nat) (key v : String) :
    fillAttribute (filled ++ List.replicate (r + 1) none, i) key (some v) =
      (filled ++ [some (KeyValue.mk key v)] ++ List.replicate r none, i + 1) := by
  subst hi
  simp [fillAttribute, List.replicate_succ]

@[simp]
theorem fillAttribute_none (acc : List (Option KeyValue) × Nat) (key : String) :
    fillAttribute acc key none = acc := rfl

/-- The name closes the prefix; the slots after it stay `nil`. -/
theorem nameAttributes_filled (filled : List (Option KeyValue)) {i : Nat} (hi : i = filled.length)
    (r : Nat) :
    nameAttributes (filled ++ List.replicate (r + 1) none, i) =
      filled ++ some nameAttribute :: List.replicate r none := by
  subst hi
  simp [nameAttributes, List.replicate_succ]

/-- A loop whose every `Get` finds the entry's value appends the entries' attributes to the
prefix. -/
theorem foldl_fillAttribute (get : String → Option String) :
    ∀ (es : List (Σ _ : String, String)) (filled : List (Option KeyValue)) (r : Nat),
      (∀ e ∈ es, get e.1 = some e.2) →
      (es.map Sigma.fst).foldl (fun acc key => fillAttribute acc key (get key))
          (filled ++ List.replicate (es.length + r + 1) none, filled.length) =
        (filled ++ es.map entryAttribute ++ List.replicate (r + 1) none,
          (filled ++ es.map entryAttribute).length)
  | [], filled, r, _ => by simp
  | e :: es, filled, r, hget => by
    have hrest := foldl_fillAttribute get es (filled ++ [entryAttribute e]) r
      fun e' he' => hget e' (List.mem_cons_of_mem e he')
    rw [List.map_cons, List.foldl_cons, hget e (List.mem_cons_self e es), List.length_cons,
      show es.length + 1 + r + 1 = (es.length + r + 1) + 1 by omega, fillAttribute_some _ rfl]
    simpa using hrest

/-- On a cache nothing else touches, the resource is the cache's entries in key order, then the
name: no `nil`, the name last, distinct keys, each with its stored value. -/
theorem getResource_eq (hostmetadata : Cache String String) :
    getResource hostmetadata =
      hostmetadata.entries.map entryAttribute ++ [some nameAttribute] := by
  have hloop := foldl_fillAttribute hostmetadata.lookup hostmetadata.entries [] 0
    fun e he => AList.mem_lookup_iff.mpr (Sigma.eta e ▸ he)
  simp only [List.nil_append, List.length_nil, Nat.add_zero] at hloop
  rw [getResource, emptyAttributes, AList.keys, List.keys, List.length_map, hloop]
  simpa using nameAttributes_filled (hostmetadata.entries.map entryAttribute) rfl 0

/-- `addHostmetadata` keeps the keys in `Keys` order, so a report lists them in the order they
were added. -/
example : getResource (addHostmetadata MapOrder.stored (startOTLP "" : OTLPReporter Nat Nat)
    (((∅ : Cache String String).insert "b" "2").insert "a" "1")).hostmetadata =
      [some ⟨"a", "1"⟩, some ⟨"b", "2"⟩, some nameAttribute] := by
  decide

/-! ### The host metadata cache -/

/-- `lru.SyncedLRU` with no lifetime: its entries from the least to the most recently used, with
distinct keys and at most `capacity` of them. -/
structure SyncedLRU (capacity : ℕ+) (K V : Type) where
  entries : List (K × V)
  nodup : (entries.map Prod.fst).Nodup
  length_le : entries.length ≤ capacity

namespace SyncedLRU

variable {capacity : ℕ+} {K V : Type} [DecidableEq K]

/-- `Keys`: the keys, from the least to the most recently used. -/
def keys (c : SyncedLRU capacity K V) : List K := c.entries.map Prod.fst

/-- The value the cache holds for a key. -/
def lookup (c : SyncedLRU capacity K V) (key : K) : Option V :=
  (c.entries.find? (·.1 = key)).map Prod.snd

/-- The entries with `key` moved to the most recently used end, holding `value`. -/
def putBack (entries : List (K × V)) (key : K) (value : V) : List (K × V) :=
  entries.filter (·.1 ≠ key) ++ [(key, value)]

theorem mem_putBack {entries : List (K × V)} {key : K} {value : V} {p : K × V} :
    p ∈ putBack entries key value ↔ (p ∈ entries ∧ p.1 ≠ key) ∨ p = (key, value) := by
  simp [putBack]

theorem nodup_putBack {entries : List (K × V)} (h : (entries.map Prod.fst).Nodup) (key : K)
    (value : V) : ((putBack entries key value).map Prod.fst).Nodup := by
  rw [putBack, List.map_append, List.nodup_append]
  refine ⟨((List.filter_sublist _).map _).nodup h, List.nodup_singleton _, ?_⟩
  simp [List.Disjoint]

/-- Moving a key the entries hold does not make them longer; adding one makes them one longer. -/
theorem length_putBack_le (entries : List (K × V)) (key : K) (value : V) :
    (putBack entries key value).length ≤ entries.length + 1 ∧
      (key ∈ entries.map Prod.fst → (putBack entries key value).length ≤ entries.length) := by
  have hle := List.length_filter_le (fun p : K × V => decide (p.1 ≠ key)) entries
  refine ⟨by simp only [putBack, List.length_append, List.length_singleton]; omega, fun hkey => ?_⟩
  obtain ⟨p, hp, rfl⟩ := List.mem_map.mp hkey
  have hlt := List.length_filter_lt_length_iff_exists
    (p := fun q : K × V => decide (q.1 ≠ p.1)) |>.mpr ⟨p, hp, by simp⟩
  simp only [putBack, List.length_append, List.length_singleton]
  omega

omit [DecidableEq K] in
theorem nodup_tail (c : SyncedLRU capacity K V) : (c.entries.tail.map Prod.fst).Nodup := by
  rw [List.map_tail]
  exact (List.tail_sublist _).nodup c.nodup

theorem length_putBack_tail_le {c : SyncedLRU capacity K V} (hfull : ¬c.entries.length < capacity)
    (key : K) (value : V) : (putBack c.entries.tail key value).length ≤ capacity := by
  have hput := (length_putBack_le c.entries.tail key value).1
  have hle := c.length_le
  have hpos := capacity.pos
  rw [List.length_tail] at hput
  exact hput.trans (by omega)

theorem mem_of_lookup {c : SyncedLRU capacity K V} {key : K} {v : V} (h : c.lookup key = some v) :
    (key, v) ∈ c.entries := by
  obtain ⟨p, hp, rfl⟩ := Option.map_eq_some'.mp h
  have hkey : p.1 = key := by simpa using List.find?_some hp
  rw [← hkey]
  exact List.mem_of_find?_eq_some hp

theorem mem_keys_of_lookup {c : SyncedLRU capacity K V} {key : K} {v : V}
    (h : c.lookup key = some v) : key ∈ c.keys :=
  List.mem_map.mpr ⟨_, mem_of_lookup h, rfl⟩

/-- `Add`: a key the cache holds moves to the most recently used end with the new value; a new key
goes there too, once the least recently used entry is evicted if the cache is full. -/
def add (c : SyncedLRU capacity K V) (key : K) (value : V) : SyncedLRU capacity K V :=
  if hroom : key ∈ c.keys ∨ c.entries.length < capacity then
    ⟨putBack c.entries key value, nodup_putBack c.nodup key value, by
      rcases hroom with hkey | hlt
      · exact ((length_putBack_le _ _ _).2 hkey).trans c.length_le
      · have := (length_putBack_le c.entries key value).1
        omega⟩
  else
    ⟨putBack c.entries.tail key value, nodup_putBack c.nodup_tail key value,
      length_putBack_tail_le (fun h => hroom (.inr h)) key value⟩

/-- `Get`: the value held for the key, which becomes the most recently used. -/
def get (c : SyncedLRU capacity K V) (key : K) : Option V × SyncedLRU capacity K V :=
  match hv : c.lookup key with
  | some v => (some v, ⟨putBack c.entries key v, nodup_putBack c.nodup key v,
      ((length_putBack_le _ _ _).2 (mem_keys_of_lookup hv)).trans c.length_le⟩)
  | none => (none, c)

theorem lookup_eq_none {c : SyncedLRU capacity K V} {key : K} (h : key ∉ c.keys) :
    c.lookup key = none := by
  simp only [lookup, Option.map_eq_none', List.find?_eq_none, decide_eq_true_eq]
  exact fun p hp hkey => h (List.mem_map.mpr ⟨p, hp, hkey⟩)

@[simp]
theorem get_fst (c : SyncedLRU capacity K V) (key : K) : (c.get key).1 = c.lookup key := by
  unfold get
  split <;> simp_all

/-- A `Get` only reorders the entries. -/
theorem mem_get_entries {c : SyncedLRU capacity K V} {key : K} {p : K × V} :
    p ∈ (c.get key).2.entries ↔ p ∈ c.entries := by
  unfold get
  split
  · next v hv =>
    have hmem := mem_of_lookup hv
    simp only [mem_putBack]
    constructor
    · rintro (⟨hp, -⟩ | rfl)
      exacts [hp, hmem]
    · intro hp
      by_cases hkey : p.1 = key
      · exact .inr (List.inj_on_of_nodup_map c.nodup hp hmem hkey)
      · exact .inl ⟨hp, hkey⟩
  · rfl

/-- What an `Add` leaves is an entry held before or the pair added. -/
theorem mem_add_entries {c : SyncedLRU capacity K V} {key : K} {value : V} {p : K × V}
    (hp : p ∈ (c.add key value).entries) : p ∈ c.entries ∨ p = (key, value) := by
  unfold add at hp
  split at hp
  · rcases mem_putBack.mp hp with ⟨hp, -⟩ | rfl
    exacts [.inl hp, .inr rfl]
  · rcases mem_putBack.mp hp with ⟨hp, -⟩ | rfl
    exacts [.inl (List.mem_of_mem_tail hp), .inr rfl]

/-- Adding a new key to a full cache evicts its least recently used key. -/
theorem add_evicts {c : SyncedLRU capacity K V} (hfull : c.entries.length = capacity) {key : K}
    (hkey : key ∉ c.keys) (value : V) :
    ∃ evicted rest, c.keys = evicted :: rest ∧ evicted ∉ (c.add key value).keys := by
  have hlen : 0 < c.keys.length := by rw [keys, List.length_map, hfull]; exact capacity.pos
  obtain ⟨evicted, rest, hkeys⟩ := List.exists_cons_of_ne_nil (List.ne_nil_of_length_pos hlen)
  have hfresh : evicted ∉ rest := (List.nodup_cons.mp (hkeys ▸ show c.keys.Nodup from c.nodup)).1
  refine ⟨evicted, rest, hkeys, fun hmem => ?_⟩
  obtain ⟨p, hp, rfl⟩ := List.mem_map.mp hmem
  unfold add at hp
  rw [dif_neg (by rw [hfull]; simp [hkey])] at hp
  rcases mem_putBack.mp hp with ⟨hp, -⟩ | rfl
  · refine hfresh ?_
    rw [show rest = c.keys.tail by rw [hkeys]; rfl, keys, ← List.map_tail]
    exact List.mem_map_of_mem _ hp
  · exact hkey (by rw [hkeys]; exact List.mem_cons_self _ _)

theorem lookup_eq_some_iff {c : SyncedLRU capacity K V} {key : K} {v : V} :
    c.lookup key = some v ↔ (key, v) ∈ c.entries := by
  refine ⟨mem_of_lookup, fun hmem => ?_⟩
  obtain ⟨p, hp⟩ : ∃ p, c.entries.find? (·.1 = key) = some p :=
    Option.ne_none_iff_exists'.mp fun hnone => by simpa using List.find?_eq_none.mp hnone _ hmem
  have hkey : p.1 = key := by simpa using List.find?_some hp
  rw [lookup, hp, List.inj_on_of_nodup_map c.nodup (List.mem_of_find?_eq_some hp) hmem hkey]
  rfl

/-- A `Get` changes no value the cache holds. -/
theorem lookup_get (c : SyncedLRU capacity K V) (key k : K) :
    (c.get key).2.lookup k = c.lookup k :=
  Option.ext fun v => by simp only [Option.mem_def, lookup_eq_some_iff, mem_get_entries]

/-- The cache's contents, as the association list the sequential model reads. -/
def toCache (c : SyncedLRU capacity K V) : Cache K V :=
  ⟨c.entries.map fun p => ⟨p.1, p.2⟩, by
    simpa [List.NodupKeys, List.keys, Function.comp_def] using c.nodup⟩

omit [DecidableEq K] in
theorem toCache_keys (c : SyncedLRU capacity K V) : c.toCache.keys = c.keys := by
  simp [toCache, AList.keys, List.keys, keys, Function.comp_def]

theorem toCache_lookup (c : SyncedLRU capacity K V) (key : K) :
    c.toCache.lookup key = c.lookup key :=
  Option.ext fun v => by
    rw [AList.mem_lookup_iff, Option.mem_def, lookup_eq_some_iff]
    simp [toCache]

end SyncedLRU

/-- The capacity `StartOTLP` gives the host metadata cache. -/
def hostmetadataCapacity : ℕ+ := 115

/-- `getResource` between two of its operations on the cache: before `Keys`; in the loop, with
the keys of the snapshot still to read, the array and `i`; or returned. -/
inductive GetResource where
  | start
  | loop (pending : List String) (acc : List (Option KeyValue) × Nat)
  | done (attributes : List (Option KeyValue))
  deriving DecidableEq, Repr

/-- A `getResource` call and concurrent `addHostmetadata` calls on the host metadata cache, with
two records of the run: every pair the cache held at the start or was given since, and every `Get`
of `getResource` with what it returned. -/
structure HostmetadataWorld where
  hostmetadata : SyncedLRU hostmetadataCapacity String String
  getter : GetResource
  added : List (String × String)
  gets : List (String × Option String)

/-- One atomic operation: an `Add` of some `addHostmetadata` call, or the next operation of
`getResource` (`Keys`, one `Get`, or the last write). -/
inductive HostmetadataEvent where
  | add (key value : String)
  | getResource
  deriving DecidableEq, Repr

/-- One operation. -/
def HostmetadataWorld.step (w : HostmetadataWorld) : HostmetadataEvent → HostmetadataWorld
  | .add key value =>
    { w with hostmetadata := w.hostmetadata.add key value, added := w.added ++ [(key, value)] }
  | .getResource =>
    match w.getter with
    | .start => { w with getter := .loop w.hostmetadata.keys (emptyAttributes w.hostmetadata.keys) }
    | .loop [] acc => { w with getter := .done (nameAttributes acc) }
    | .loop (key :: pending) acc =>
      { w with
        hostmetadata := (w.hostmetadata.get key).2
        getter := .loop pending (fillAttribute acc key (w.hostmetadata.get key).1)
        gets := w.gets ++ [(key, (w.hostmetadata.get key).1)] }
    | .done _ => w

/-- An interleaving of operations. -/
def HostmetadataWorld.run (w : HostmetadataWorld) (events : List HostmetadataEvent) :
    HostmetadataWorld :=
  events.foldl HostmetadataWorld.step w

@[simp]
theorem HostmetadataWorld.run_nil (w : HostmetadataWorld) : w.run [] = w := rfl

@[simp]
theorem HostmetadataWorld.run_cons (w : HostmetadataWorld) (e : HostmetadataEvent)
    (events : List HostmetadataEvent) : w.run (e :: events) = (w.step e).run events := rfl

/-- `getResource` before it starts, beside a cache that holds what it was given. -/
def HostmetadataWorld.initial (c : SyncedLRU hostmetadataCapacity String String) :
    HostmetadataWorld :=
  ⟨c, .start, c.entries, []⟩

/-! ### What every interleaving keeps -/

/-- The attributes that the `Get`s which found their key fill, in the order of the `Get`s. -/
def hits (gets : List (String × Option String)) : List KeyValue :=
  gets.filterMap fun g => g.2.map (KeyValue.mk g.1)

/-- The number of `Get`s that missed. -/
def misses (gets : List (String × Option String)) : Nat :=
  gets.countP fun g => g.2.isNone

@[simp]
theorem hits_append_get (gets : List (String × Option String)) (key : String)
    (got : Option String) :
    hits (gets ++ [(key, got)]) = hits gets ++ (got.map (KeyValue.mk key)).toList := by
  cases got <;> simp [hits]

@[simp]
theorem misses_append_get (gets : List (String × Option String)) (key : String)
    (got : Option String) :
    misses (gets ++ [(key, got)]) = misses gets + if got.isNone then 1 else 0 := by
  cases got <;> simp [misses, List.countP_append]

theorem keys_hits_sublist :
    ∀ gets : List (String × Option String),
      ((hits gets).map KeyValue.key).Sublist (gets.map Prod.fst)
  | [] => List.Sublist.slnil
  | (key, none) :: gets => (keys_hits_sublist gets).cons key
  | (key, some _) :: gets => (keys_hits_sublist gets).cons₂ key

/-- What holds of `getResource` at every point of every interleaving, given the `Get`s it has
made. Before `Keys` it has made none. In the loop, the keys it has read and those still to read
are distinct, and the array holds the attributes of the `Get`s that found their key, each with a
value added for it, then `nil` slots: one per key still to read, one per `Get` that missed, and
one for the name. Once returned, the array is those attributes, the name, and a `nil` slot per
`Get` that missed. -/
def GetResource.Safe (added : List (String × String)) (gets : List (String × Option String)) :
    GetResource → Prop
  | .start => gets = []
  | .loop pending acc => (gets.map Prod.fst ++ pending).Nodup ∧
      (∀ kv ∈ hits gets, (kv.key, kv.value) ∈ added) ∧
      acc = ((hits gets).map some ++ List.replicate (pending.length + misses gets + 1) none,
        (hits gets).length)
  | .done attributes => (gets.map Prod.fst).Nodup ∧
      (∀ kv ∈ hits gets, (kv.key, kv.value) ∈ added) ∧
      attributes = (hits gets).map some ++ some nameAttribute :: List.replicate (misses gets) none

theorem GetResource.Safe.mono {added added' : List (String × String)}
    {gets : List (String × Option String)} (hsub : ∀ p ∈ added, p ∈ added') :
    ∀ {g : GetResource}, g.Safe added gets → g.Safe added' gets
  | .start, hg => hg
  | .loop _ _, ⟨hnodup, hadded, hacc⟩ => ⟨hnodup, fun kv hkv => hsub _ (hadded kv hkv), hacc⟩
  | .done _, ⟨hnodup, hadded, hattributes⟩ =>
    ⟨hnodup, fun kv hkv => hsub _ (hadded kv hkv), hattributes⟩

/-- The invariant of an interleaving: the cache holds only pairs it was given, and `getResource`
is safe. -/
def HostmetadataWorld.Safe (w : HostmetadataWorld) : Prop :=
  (∀ p ∈ w.hostmetadata.entries, p ∈ w.added) ∧ w.getter.Safe w.added w.gets

theorem HostmetadataWorld.safe_initial (c : SyncedLRU hostmetadataCapacity String String) :
    (HostmetadataWorld.initial c).Safe :=
  ⟨fun _ hp => hp, rfl⟩

/-- One `Get` of the loop keeps `getResource` safe, whether it finds the key or misses it. -/
theorem GetResource.Safe.get {added : List (String × String)}
    {gets : List (String × Option String)} {key : String} {pending : List String}
    {acc : List (Option KeyValue) × Nat}
    (hsafe : (GetResource.loop (key :: pending) acc).Safe added gets)
    {got : Option String} (hgot : ∀ v, got = some v → (key, v) ∈ added) :
    (GetResource.loop pending (fillAttribute acc key got)).Safe added (gets ++ [(key, got)]) := by
  obtain ⟨hnodup, hadded, rfl⟩ := hsafe
  refine ⟨by simpa using hnodup, fun kv hkv => ?_, ?_⟩
  · rw [hits_append_get, List.mem_append] at hkv
    refine hkv.elim (hadded kv) fun hkv => ?_
    cases got with
    | none => cases hkv
    | some v =>
      obtain rfl : kv = ⟨key, v⟩ := by simpa using hkv
      exact hgot v rfl
  cases got with
  | none =>
    simp only [List.length_cons, fillAttribute_none, hits_append_get, misses_append_get,
      Option.map_none', Option.toList_none, List.append_nil, Option.isNone_none, if_true]
    rw [show pending.length + 1 + misses gets + 1 = pending.length + (misses gets + 1) + 1 by omega]
  | some v =>
    rw [List.length_cons, show pending.length + 1 + misses gets + 1 =
      (pending.length + misses gets + 1) + 1 by omega,
      fillAttribute_some _ (List.length_map _ _).symm]
    simp

/-- Every operation keeps the invariant. -/
theorem HostmetadataWorld.Safe.step {w : HostmetadataWorld} (hsafe : w.Safe)
    (e : HostmetadataEvent) : (w.step e).Safe := by
  obtain ⟨hcache, hgetter⟩ := hsafe
  cases e with
  | add key value =>
    refine ⟨fun p hp => ?_, hgetter.mono fun p hp => List.mem_append_left _ hp⟩
    rcases SyncedLRU.mem_add_entries hp with hp | rfl
    · exact List.mem_append_left _ (hcache p hp)
    · exact List.mem_append_right _ (List.mem_singleton_self _)
  | getResource =>
    obtain ⟨c, g, added, gets⟩ := w
    dsimp only [HostmetadataWorld.Safe, HostmetadataWorld.step] at hcache hgetter ⊢
    cases g with
    | start =>
      obtain rfl : gets = [] := hgetter
      exact ⟨hcache, by simpa [SyncedLRU.keys] using c.nodup, by simp [hits],
        by simp [emptyAttributes, hits, misses]⟩
    | loop pending acc =>
      cases pending with
      | nil =>
        obtain ⟨hnodup, hadded, rfl⟩ := hgetter
        refine ⟨hcache, by simpa using hnodup, hadded, ?_⟩
        simpa using nameAttributes_filled _ (List.length_map (hits gets) some).symm (misses gets)
      | cons key pending =>
        exact ⟨fun p hp => hcache p (SyncedLRU.mem_get_entries.mp hp),
          hgetter.get fun v hv => hcache _ (SyncedLRU.mem_of_lookup (by simpa using hv))⟩
    | done attributes => exact ⟨hcache, hgetter⟩

theorem HostmetadataWorld.Safe.run {w : HostmetadataWorld} (hsafe : w.Safe) :
    ∀ events : List HostmetadataEvent, (w.run events).Safe
  | [] => hsafe
  | e :: events => (hsafe.step e).run events

/-- Whatever `Add`s run between its operations, what `getResource` returns is the attributes of
its `Get`s that found their key, in the order of the `Get`s, with distinct keys each holding a
value that was added for it; then the name; then one `nil` slot for each `Get` that missed. -/
theorem run_getResource_filled (c : SyncedLRU hostmetadataCapacity String String)
    (events : List HostmetadataEvent) {attributes : List (Option KeyValue)}
    (hdone : ((HostmetadataWorld.initial c).run events).getter = .done attributes) :
    let w := (HostmetadataWorld.initial c).run events
    attributes =
        (hits w.gets).map some ++ some nameAttribute :: List.replicate (misses w.gets) none ∧
      ((hits w.gets).map KeyValue.key).Nodup ∧
      ∀ kv ∈ hits w.gets, (kv.key, kv.value) ∈ w.added := by
  have hsafe := ((HostmetadataWorld.safe_initial c).run events).2
  rw [hdone] at hsafe
  obtain ⟨hnodup, hadded, hattributes⟩ := hsafe
  exact ⟨hattributes, (keys_hits_sublist _).nodup hnodup, hadded⟩

theorem run_getResource_filled_addDuring :
    let c : SyncedLRU hostmetadataCapacity String String :=
      ⟨[("host:name", "node-1")], by decide, by decide⟩
    let events : List HostmetadataEvent :=
      [.getResource, .add "host:ip" "10.0.0.1", .getResource, .getResource]
    ((HostmetadataWorld.initial c).run events).getter =
        .done [some ⟨"host:name", "node-1"⟩, some nameAttribute] ∧
      let w := (HostmetadataWorld.initial c).run events
      [some ⟨"host:name", "node-1"⟩, some nameAttribute] =
          (hits w.gets).map some ++ some nameAttribute :: List.replicate (misses w.gets) none ∧
        ((hits w.gets).map KeyValue.key).Nodup ∧
        ∀ kv ∈ hits w.gets, (kv.key, kv.value) ∈ w.added := by
  intro c events
  have hdone : ((HostmetadataWorld.initial c).run events).getter =
      .done [some ⟨"host:name", "node-1"⟩, some nameAttribute] := by decide
  exact ⟨hdone, run_getResource_filled c events hdone⟩

/-! ### `getResource` alone -/

/-- With no `Add` in between, each `Get` of the loop returns what the cache held when the loop
went on, since a `Get` changes no value. -/
theorem run_loop_alone : ∀ (pending : List String) (w : HostmetadataWorld)
    (acc : List (Option KeyValue) × Nat), w.getter = .loop pending acc →
    (w.run (List.replicate (pending.length + 1) .getResource)).getter =
      .done (nameAttributes (pending.foldl
        (fun acc key => fillAttribute acc key (w.hostmetadata.lookup key)) acc))
  | [], w, acc, hg => by simp [HostmetadataWorld.step, hg]
  | key :: pending, w, acc, hg => by
    have hstep : (w.step .getResource).getter =
        .loop pending (fillAttribute acc key (w.hostmetadata.lookup key)) := by
      simp [HostmetadataWorld.step, hg]
    rw [List.length_cons, List.replicate_succ, HostmetadataWorld.run_cons,
      run_loop_alone pending _ _ hstep, List.foldl_cons]
    simp only [HostmetadataWorld.step, hg, SyncedLRU.lookup_get]

/-- With nothing running beside it, `getResource` returns what the sequential model returns on
the cache's contents: every entry in key order, then the name. -/
theorem run_getResource_alone (c : SyncedLRU hostmetadataCapacity String String) :
    ((HostmetadataWorld.initial c).run (List.replicate (c.entries.length + 2) .getResource)).getter =
      .done (getResource c.toCache) := by
  have hlen : c.entries.length = c.keys.length := (List.length_map _ _).symm
  rw [show c.entries.length + 2 = c.keys.length + 1 + 1 by omega, List.replicate_succ,
    HostmetadataWorld.run_cons, run_loop_alone c.keys _ _ rfl]
  simp only [getResource, SyncedLRU.toCache_keys, SyncedLRU.toCache_lookup]
  rfl

/-! ### An eviction between `Keys` and `Get` -/

/-- With no `Add` in between, `getResource` finishes its loop, one operation per key left and one
for the name; a slot left free stays free. -/
theorem run_loop_done : ∀ (pending : List String) (w : HostmetadataWorld) (filled : List KeyValue)
    (free : Nat), w.getter = .loop pending
      (filled.map some ++ List.replicate (pending.length + free + 1) none, filled.length) →
    ∃ (filled' : List KeyValue) (missed : Nat), free ≤ missed ∧
      (w.run (List.replicate (pending.length + 1) .getResource)).getter =
        .done (filled'.map some ++ some nameAttribute :: List.replicate missed none)
  | [], w, filled, free, hg => by
    refine ⟨filled, free, le_rfl, ?_⟩
    simp only [List.length_nil, Nat.zero_add, List.replicate_one, HostmetadataWorld.run_cons,
      HostmetadataWorld.run_nil, HostmetadataWorld.step, hg]
    rw [nameAttributes_filled _ (List.length_map _ _).symm]
  | key :: pending, w, filled, free, hg => by
    rw [List.length_cons, List.replicate_succ, HostmetadataWorld.run_cons]
    have hstep : (w.step .getResource).getter = .loop pending (fillAttribute
        (filled.map some ++ List.replicate (pending.length + 1 + free + 1) none, filled.length) key
        (w.hostmetadata.lookup key)) := by
      simp [HostmetadataWorld.step, hg]
    cases hget : w.hostmetadata.lookup key with
    | none =>
      obtain ⟨filled', missed, hmissed, hdone⟩ := run_loop_done pending _ filled (free + 1)
        (by rw [hstep, hget, fillAttribute_none]; congr 4; omega)
      exact ⟨filled', missed, by omega, hdone⟩
    | some v =>
      obtain ⟨filled', missed, hmissed, hdone⟩ := run_loop_done pending _ (filled ++ [KeyValue.mk key v]) free
        (by
          rw [hstep, hget, show pending.length + 1 + free + 1 = (pending.length + free + 1) + 1 by omega,
            fillAttribute_some _ (List.length_map _ _).symm]
          simp)
      exact ⟨filled', missed, hmissed, hdone⟩

/-- `getResource` takes its snapshot of a full cache, and before its first `Get` an
`addHostmetadata` call adds a new key. The `Add` evicts the least recently used key, which is the
first of the snapshot, so that `Get` misses; the array `getResource` returns then ends with a
`nil` slot, not with the name. -/
theorem run_getResource_evicted (c : SyncedLRU hostmetadataCapacity String String)
    (hfull : c.entries.length = hostmetadataCapacity) {key : String} (hkey : key ∉ c.keys)
    (value : String) :
    ∃ attributes, ((HostmetadataWorld.initial c).run
        (.getResource :: .add key value :: List.replicate (c.entries.length + 1) .getResource)).getter =
          .done attributes ∧ attributes.getLast? = some none := by
  obtain ⟨evicted, rest, hkeys, hevicted⟩ := c.add_evicts hfull hkey value
  have hlen : c.entries.length = rest.length + 1 := by
    rw [← List.length_map c.entries Prod.fst, ← SyncedLRU.keys, hkeys, List.length_cons]
  obtain ⟨filled, missed, hmissed, hdone⟩ := run_loop_done rest
    ((((HostmetadataWorld.initial c).step .getResource).step (.add key value)).step .getResource)
    [] 1 (by
      simp [HostmetadataWorld.step, HostmetadataWorld.initial, hkeys, emptyAttributes,
        SyncedLRU.lookup_eq_none hevicted])
  refine ⟨_, by rw [hlen, List.replicate_succ]; exact hdone, ?_⟩
  obtain ⟨m, rfl⟩ := Nat.exists_eq_add_of_le' hmissed
  rw [List.replicate_succ', ← List.cons_append, ← List.append_assoc, List.getLast?_concat]

/-- A full host metadata cache: 115 keys `k`, `kk`, …, each with the value `v`. -/
def fullHostmetadata : SyncedLRU hostmetadataCapacity String String where
  entries := (List.range 115).map fun n => (String.mk (List.replicate (n + 1) 'k'), "v")
  nodup := by
    rw [List.map_map]
    refine (List.nodup_range 115).map fun a b h => ?_
    simpa using congrArg String.length h
  length_le := by simp [hostmetadataCapacity]

/-- On the full cache, `getResource` and an `addHostmetadata` call adding `host:ip` between its
`Keys` and its first `Get`: the array returned ends with a `nil` slot. -/
theorem getResource_fullHostmetadata_evicted :
    ∃ attributes, ((HostmetadataWorld.initial fullHostmetadata).run
        (.getResource :: .add "host:ip" "10.0.0.1" :: List.replicate 116 .getResource)).getter =
          .done attributes ∧ attributes.getLast? = some none := by
  have hkey : "host:ip" ∉ fullHostmetadata.keys := by
    simp only [SyncedLRU.keys, fullHostmetadata, List.map_map, List.mem_map, List.mem_range,
      Function.comp, not_exists, not_and]
    intro n _ h
    simpa [List.replicate_succ] using congrArg (fun s : String => s.data.head?) h
  exact run_getResource_evicted fullHostmetadata rfl hkey "10.0.0.1"

end ProfilingAgent.Reporter
