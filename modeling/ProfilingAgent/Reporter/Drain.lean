import ProfilingAgent.Reporter.GetProfile

/-!
# Draining the sample cache

The first phase of `getProfile` moves every sample out of the cache into a local copy and puts
back those whose trace hash has no `traces` entry. Stated on lookups: the drain leaves the cache
empty and the copy equal to the old cache, and the requeue moves exactly the listed hashes back.
So the samples a report encodes are the cached samples whose hash has a `traces` entry, once
each, and the cache it leaves holds the others.
-/

namespace ProfilingAgent.Reporter

variable {TraceHash FileID : Type} [DecidableEq TraceHash]

/-- Where the drain of `m` stands with the keys `pending` left to visit: those are still in the
cache and not yet copied, the others are copied and out of the cache. -/
structure Draining (m : Cache TraceHash Sample) (pending : List TraceHash)
    (acc : Cache TraceHash Sample × Cache TraceHash Sample) : Prop where
  pending_cache : ∀ k ∈ pending, acc.1.lookup k = m.lookup k
  pending_copy : ∀ k ∈ pending, acc.2.lookup k = none
  done_cache : ∀ k ∉ pending, acc.1.lookup k = none
  done_copy : ∀ k ∉ pending, acc.2.lookup k = m.lookup k

theorem draining_init (m : Cache TraceHash Sample) : Draining m m.keys (m, ∅) where
  pending_cache _ _ := rfl
  pending_copy _ _ := AList.lookup_empty _
  done_cache _ hk := AList.lookup_eq_none.mpr (mt AList.mem_keys.mpr hk)
  done_copy _ hk := (AList.lookup_eq_none.mpr (mt AList.mem_keys.mpr hk)).symm

/-- One turn moves the visited key, which is still in the cache, into the copy. -/
theorem Draining.step {m : Cache TraceHash Sample} {k : TraceHash} {pending : List TraceHash}
    {acc : Cache TraceHash Sample × Cache TraceHash Sample} (h : Draining m (k :: pending) acc)
    (hk : k ∉ pending) (hmem : k ∈ m) : Draining m pending (drainKey acc k) := by
  obtain ⟨v, hv⟩ := Option.isSome_iff_exists.mp (AList.lookup_isSome.mpr hmem)
  have hstep : drainKey acc k = (acc.1.erase k, acc.2.insert k v) := by
    simp [drainKey, h.pending_cache k (List.mem_cons_self _ _), hv]
  have hne : ∀ k' ∈ pending, k' ≠ k := fun k' hk' heq => hk (heq ▸ hk')
  rw [hstep]
  refine ⟨fun k' hk' => ?_, fun k' hk' => ?_, fun k' hk' => ?_, fun k' hk' => ?_⟩
  · rw [AList.lookup_erase_ne (hne k' hk'), h.pending_cache k' (List.mem_cons_of_mem _ hk')]
  · rw [AList.lookup_insert_ne (hne k' hk'), h.pending_copy k' (List.mem_cons_of_mem _ hk')]
  · by_cases heq : k' = k
    · rw [heq, AList.lookup_erase]
    · rw [AList.lookup_erase_ne heq, h.done_cache k' (by simp [heq, hk'])]
  · by_cases heq : k' = k
    · rw [heq, AList.lookup_insert, hv]
    · rw [AList.lookup_insert_ne heq, h.done_copy k' (by simp [heq, hk'])]

theorem Draining.run {m : Cache TraceHash Sample} :
    ∀ {pending : List TraceHash} {acc : Cache TraceHash Sample × Cache TraceHash Sample},
      pending.Nodup → (∀ k ∈ pending, k ∈ m) → Draining m pending acc →
      Draining m [] (pending.foldl drainKey acc)
  | [], _, _, _, h => h
  | k :: pending, _, hnodup, hmem, h => by
    rw [List.foldl_cons]
    exact Draining.run (List.nodup_cons.mp hnodup).2
      (fun k' hk' => hmem k' (List.mem_cons_of_mem _ hk'))
      (h.step (List.nodup_cons.mp hnodup).1 (hmem k (List.mem_cons_self _ _)))

/-- The drain empties the cache into the copy. -/
theorem drainSamples_lookup (m : Cache TraceHash Sample) (k : TraceHash) :
    (drainSamples m).1.lookup k = none ∧ (drainSamples m).2.lookup k = m.lookup k :=
  have h := Draining.run m.keys_nodup (fun _ hk => AList.mem_keys.mp hk) (draining_init m)
  ⟨h.done_cache k (List.not_mem_nil k), h.done_copy k (List.not_mem_nil k)⟩

/-- The requeue moves each listed hash from the copy back into the cache. -/
theorem requeueSamples_lookup :
    ∀ (missing : List TraceHash) (acc : Cache TraceHash Sample × Cache TraceHash Sample),
      missing.Nodup → ∀ k,
      (requeueSamples missing acc).1.lookup k =
          (if k ∈ missing then some ((acc.2.lookup k).getD {}) else acc.1.lookup k) ∧
        (requeueSamples missing acc).2.lookup k = (if k ∈ missing then none else acc.2.lookup k)
  | [], acc, _, k => by simp [requeueSamples]
  | t :: rest, acc, hnodup, k => by
    have ih := requeueSamples_lookup rest (requeueKey acc t) (List.nodup_cons.mp hnodup).2 k
    rw [requeueSamples, List.foldl_cons] at *
    rw [ih.1, ih.2]
    by_cases hrest : k ∈ rest
    · have hne : k ≠ t := fun heq => (List.nodup_cons.mp hnodup).1 (heq ▸ hrest)
      simp [hrest, requeueKey, AList.lookup_erase_ne hne]
    · by_cases heq : k = t
      · subst heq
        simp [hrest, requeueKey]
      · simp [hrest, heq, requeueKey, AList.lookup_erase_ne heq, AList.lookup_insert_ne heq]

/-- Drain then requeue: a hash with a `traces` entry ends in the copy, any other stays in the
cache. -/
theorem drain_requeue_lookup (order : MapOrder) (traces : Cache TraceHash (TraceInfo FileID))
    (m : Cache TraceHash Sample) (k : TraceHash) :
    (requeueSamples (samplesWoTraceinfo order traces (drainSamples m).2) (drainSamples m)).1.lookup k =
        (if (traces.lookup k).isSome then none else m.lookup k) ∧
      (requeueSamples (samplesWoTraceinfo order traces (drainSamples m).2)
        (drainSamples m)).2.lookup k = (if (traces.lookup k).isSome then m.lookup k else none) := by
  have hd := drainSamples_lookup m
  have hnodup : (samplesWoTraceinfo order traces (drainSamples m).2).Nodup :=
    ((order.perm _).nodup_iff.mpr (AList.keys_nodup _)).filter _
  have hmem : k ∈ samplesWoTraceinfo order traces (drainSamples m).2 ↔
      (m.lookup k).isSome ∧ (traces.lookup k).isNone := by
    rw [samplesWoTraceinfo, List.mem_filter, (order.perm _).mem_iff, ← (hd k).2]
    exact and_congr_left fun _ => AList.lookup_isSome.symm
  simp only [(requeueSamples_lookup _ _ hnodup k).1, (requeueSamples_lookup _ _ hnodup k).2, hmem,
    (hd k).1, (hd k).2]
  cases m.lookup k <;> cases traces.lookup k <;> simp

/-- The cache a report leaves holds exactly the samples whose hash has no `traces` entry. -/
theorem lookup_drainedSamples (order : MapOrder) (r : OTLPReporter TraceHash FileID)
    (k : TraceHash) :
    (drainedSamples order r).1.lookup k =
      if (r.traces.lookup k).isSome then none else r.samples.lookup k :=
  (drain_requeue_lookup order r.traces r.samples k).1

/-- A report encodes exactly the samples whose hash has a `traces` entry. -/
theorem mem_drainedSamples (order : MapOrder) (r : OTLPReporter TraceHash FileID)
    (e : Σ _ : TraceHash, Sample) :
    e ∈ (drainedSamples order r).2 ↔
      r.samples.lookup e.1 = some e.2 ∧ (r.traces.lookup e.1).isSome := by
  rw [drainedSamples, (order.perm _).mem_iff, ← AList.mem_lookup_iff,
    (drain_requeue_lookup order r.traces r.samples e.1).2]
  cases r.traces.lookup e.1 <;> simp

/-- ... and each of them once. -/
theorem nodup_drainedSamples (order : MapOrder) (r : OTLPReporter TraceHash FileID) :
    ((drainedSamples order r).2.map Sigma.fst).Nodup :=
  ((order.perm _).map Sigma.fst).nodup_iff.mpr (AList.keys_nodup _)

/-- The entries a report drains for one hash: the cached sample, if the hash has a `traces`
entry, and nothing otherwise. -/
theorem filter_drainedSamples (order : MapOrder) (r : OTLPReporter TraceHash FileID)
    (h : TraceHash) :
    ((drainedSamples order r).2.filter fun e => e.1 = h).Perm
      (if (r.traces.lookup h).isSome then
        ((r.samples.lookup h).map fun s => (⟨h, s⟩ : Σ _ : TraceHash, Sample)).toList
      else []) := by
  refine (List.perm_ext_iff_of_nodup ((nodup_drainedSamples order r).of_map _ |>.filter _)
    ?_).mpr fun e => ?_
  · split <;> cases r.samples.lookup h <;> simp
  · obtain ⟨k, s⟩ := e
    rw [List.mem_filter, mem_drainedSamples]
    by_cases hk : k = h
    · subst hk
      cases r.traces.lookup k <;> cases r.samples.lookup k <;> simp [eq_comm]
    · split <;> cases r.samples.lookup h <;> simp [hk]

end ProfilingAgent.Reporter
