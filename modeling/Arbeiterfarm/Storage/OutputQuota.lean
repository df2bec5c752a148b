import Arbeiterfarm.Storage.OutputStore

/-!
# The quotas of a tool run

The counters of the output store know what was stored as long as no two calls are between their
check and their update at once, and no call ends in between with something stored that it has not
counted. Then the outputs keep within both quotas; each of them needs its own part of this alone.
-/

namespace Arbeiterfarm.Storage

open Foundation

variable {st : FileOutputStore} {digest : Bytes → String} {s t : OutputState} {a : OutputAction}

/-! ### What a call has not counted yet -/

namespace StoreCall

/-- The bytes that a call has passed the check with. -/
def lentBytes : StoreCall → ℕ
  | .idle | .checkingBytes _ | .rejectingBytes _ | .countingArtifact _ | .done _ => 0
  | .checkingCount req | .storing req | .creating req _ | .linking req _ | .countingBytes req _ =>
    req.data.length

/-- The bytes that a call has stored and not counted. -/
def uncountedBytes : StoreCall → ℕ
  | .creating req _ | .linking req _ | .countingBytes req _ => req.data.length
  | _ => 0

def lentArtifacts : StoreCall → ℕ
  | .storing _ | .creating _ _ | .linking _ _ | .countingBytes _ _ | .countingArtifact _ => 1
  | _ => 0

def uncountedArtifacts : StoreCall → ℕ
  | .linking _ _ | .countingBytes _ _ | .countingArtifact _ => 1
  | _ => 0

end StoreCall

/-- The bytes are checked while no other call has any lent, without overflow, and no call ends with
bytes that it has stored and not counted. -/
def CountsBytes (s : OutputState) : OutputAction → Prop
  | .checkBytes k => ∀ req, s.calls k = .checkingBytes req →
    (∀ j ≠ k, (s.calls j).lentBytes = 0) ∧ s.bytes_written.toNat + req.data.length < 2 ^ 64
  | .storeBlob k e _ => e = .lost → (s.calls k).lentBytes = 0
  | .createArtifact k _ e _ | .linkArtifact k e _ =>
    e ≠ .answered → (s.calls k).uncountedBytes = 0
  | .drop k => (s.calls k).uncountedBytes = 0
  | _ => True

/-- The same, of the artifacts. -/
def CountsArtifacts (s : OutputState) : OutputAction → Prop
  | .checkCount k =>
    (∀ j ≠ k, (s.calls j).lentArtifacts = 0) ∧ s.artifacts_produced.toNat + 1 < 2 ^ 32
  | .createArtifact _ _ e _ => e ≠ .lost
  | .linkArtifact _ e _ => e = .answered
  | .drop k => (s.calls k).uncountedArtifacts = 0
  | _ => True

/-! ### The bytes -/

def BytesMetered (st : FileOutputStore) (s : OutputState) : Prop :=
  Metered StoreCall.lentBytes StoreCall.uncountedBytes st.max_output_bytes.toNat
    s.bytes_written.toNat s.totalBytes s.calls

lemma toNat_add_len {n : UInt64} {req : StoreRequest}
    (h : n.toNat + req.data.length < 2 ^ 64) :
    (n + req.len).toNat = n.toNat + req.data.length := by
  have hlen : req.len.toNat = req.data.length :=
    UInt64.toNat_ofNat_of_lt' (lt_of_le_of_lt (Nat.le_add_left ..) h)
  rw [UInt64.toNat_add, hlen, Nat.mod_eq_of_lt h]

lemma totalBytes_append (s : OutputState) (data : Bytes) :
    OutputState.totalBytes { s with stored := s.stored ++ [data] } =
      s.totalBytes + data.length := by
  simp [OutputState.totalBytes]

lemma bytesMetered_step (hs : BytesMetered st s) (hC : CountsBytes s a)
    (h : s.step st digest a = some t) : BytesMetered st t := by
  cases OutputState.OutputRule.of_step h with
  | started k req hk =>
    refine Metered.release hs ?_ rfl rfl
    rcases hk with hk | ⟨result, hk⟩
    · rw [hk]
      rfl
    · rw [hk]
      rfl
  | bytesChecked k req hk hle =>
    obtain ⟨halone, hsum⟩ := hC req hk
    rw [UInt64.le_iff_toNat_le, toNat_add_len hsum] at hle
    exact Metered.acquire hs halone (by rw [hk]; rfl) hle rfl
  | bytesExceeded k req hk | bytesRejected k req err hk | countRejected k req err hk =>
    exact Metered.release hs (by rw [hk]; rfl) rfl rfl
  | countChecked k req hk => exact Metered.same hs (by rw [hk]; rfl) (by rw [hk]; rfl)
  | stored k req msg hk =>
    have hused := Metered.use hs (k := k) (p := .creating req (digest req.data))
      (n := req.data.length) (by rw [hk]; rfl) (by rw [hk]; rfl) rfl rfl
    rw [← totalBytes_append] at hused
    exact hused
  | storeFailed k req e msg err hk he =>
    have hreleased := Metered.release hs (k := k) (p := .done (.error err))
      (by rw [hk]; rfl) rfl rfl
    cases e with
    | answered => exact absurd rfl he
    | lost =>
      -- Nothing is lent for an empty content, and nothing is stored.
      have hempty : req.data.length = 0 := by
        have hlent := hC rfl
        rw [hk] at hlent
        exact hlent
      have htotal := totalBytes_append s req.data
      rw [hempty, Nat.add_zero] at htotal
      rw [← htotal] at hreleased
      exact hreleased
    | failed => exact hreleased
  | created k req sha256 id msg artifacts hk =>
    exact Metered.same hs (by rw [hk]; rfl) (by rw [hk]; rfl)
  | createFailed k req sha256 id e msg err artifacts hk he =>
    exact Metered.release hs (hC he) rfl rfl
  | linked k req id msg links hk =>
    exact Metered.same hs (by rw [hk]; rfl) (by rw [hk]; rfl)
  | linkFailed k req id e msg err links hk he => exact Metered.release hs (hC he) rfl rfl
  | bytesAdded k req id hk =>
    have hlent : (s.calls k).lentBytes = req.data.length := by
      rw [hk]
      rfl
    have hsum : s.bytes_written.toNat + req.data.length < 2 ^ 64 := by
      have hle := Metered.counter_add_le hs k
      rw [hlent] at hle
      exact lt_of_le_of_lt hle (UInt64.toNat_lt _)
    have hcounted := Metered.count hs (p := .countingArtifact id) hlent (by rw [hk]; rfl) rfl rfl
    rw [← toNat_add_len hsum] at hcounted
    exact hcounted
  | artifactAdded k id hk => exact Metered.same hs (by rw [hk]; rfl) (by rw [hk]; rfl)
  | dropped k => exact Metered.release hs hC rfl rfl

/-! ### The artifacts -/

def ArtifactsMetered (st : FileOutputStore) (s : OutputState) : Prop :=
  Metered StoreCall.lentArtifacts StoreCall.uncountedArtifacts st.max_produced_artifacts.toNat
    s.artifacts_produced.toNat s.artifacts.rows.length s.calls

lemma toNat_add_one {n : UInt32} (h : n.toNat + 1 < 2 ^ 32) : (n + 1).toNat = n.toNat + 1 := by
  rw [UInt32.toNat_add]
  exact Nat.mod_eq_of_lt h

lemma artifactsMetered_step (hs : ArtifactsMetered st s) (hC : CountsArtifacts s a)
    (h : s.step st digest a = some t) : ArtifactsMetered st t := by
  cases OutputState.OutputRule.of_step h with
  | started k req hk =>
    refine Metered.release hs ?_ rfl rfl
    rcases hk with hk | ⟨result, hk⟩
    · rw [hk]
      rfl
    · rw [hk]
      rfl
  | bytesChecked k req hk | bytesExceeded k req hk | bytesRejected k req err hk =>
    exact Metered.same hs (by rw [hk]; rfl) (by rw [hk]; rfl)
  | countChecked k req hk hle =>
    obtain ⟨halone, hsum⟩ := hC
    rw [UInt32.le_iff_toNat_le, toNat_add_one hsum] at hle
    exact Metered.acquire hs halone (by rw [hk]; rfl) hle rfl
  | countRejected k req err hk => exact Metered.release hs (by rw [hk]; rfl) rfl rfl
  | stored k req msg hk => exact Metered.same hs (by rw [hk]; rfl) (by rw [hk]; rfl)
  | storeFailed k req e msg err hk => exact Metered.release hs (by rw [hk]; rfl) rfl rfl
  | created k req sha256 id msg artifacts hk hinsert =>
    have hused := Metered.use hs (k := k) (p := .linking req id) (n := 1)
      (by rw [hk]; rfl) (by rw [hk]; rfl) rfl rfl
    have hlength : artifacts.rows.length = s.artifacts.rows.length + 1 := by
      rw [Table.rows_insert hinsert, List.length_append, List.length_singleton]
    rw [← hlength] at hused
    exact hused
  | createFailed k req sha256 id e msg err artifacts hk he =>
    have hreleased := Metered.release hs (k := k) (p := .done (.error err))
      (by rw [hk]; rfl) rfl rfl
    cases e with
    | answered => exact absurd rfl he
    | lost => exact absurd rfl hC
    | failed => exact hreleased
  | linked k req id msg links hk => exact Metered.same hs (by rw [hk]; rfl) (by rw [hk]; rfl)
  | linkFailed k req id e msg err links hk he => exact absurd hC he
  | bytesAdded k req id hk => exact Metered.same hs (by rw [hk]; rfl) (by rw [hk]; rfl)
  | artifactAdded k id hk =>
    have hlent : (s.calls k).lentArtifacts = 1 := by
      rw [hk]
      rfl
    have hsum : s.artifacts_produced.toNat + 1 < 2 ^ 32 := by
      have hle := Metered.counter_add_le hs k
      rw [hlent] at hle
      exact lt_of_le_of_lt hle (UInt32.toNat_lt _)
    have hcounted := Metered.count hs (p := .done (.ok id)) hlent (by rw [hk]; rfl) rfl rfl
    rw [← toNat_add_one hsum] at hcounted
    exact hcounted
  | dropped k => exact Metered.release hs hC rfl rfl

/-! ### Whole runs -/

/-- Each quota is kept in a run in which no two calls are between its check and its update at
once, and no call ends in between with something stored that it has not counted. -/
theorem outputQuotas_kept {as : List OutputAction}
    (h : exec (OutputState.step st digest) .init as = some s) :
    (Along (OutputState.step st digest) CountsArtifacts .init as →
      s.artifacts.rows.length ≤ st.max_produced_artifacts.toNat) ∧
    (Along (OutputState.step st digest) CountsBytes .init as →
      s.totalBytes ≤ st.max_output_bytes.toNat) := by
  constructor
  · intro hC
    have hs : ArtifactsMetered st s :=
      exec_invariant (fun s a t hs hC hstep => artifactsMetered_step hs hC hstep)
        ⟨0, fun _ _ => rfl, fun _ => le_refl 0, Nat.zero_le _, rfl⟩ hC h
    exact Metered.total_le hs
  · intro hC
    have hs : BytesMetered st s :=
      exec_invariant (fun s a t hs hC hstep => bytesMetered_step hs hC hstep)
        ⟨0, fun _ _ => rfl, fun _ => le_refl 0, Nat.zero_le _, rfl⟩ hC h
    exact Metered.total_le hs

/-! ### Two calls, and a call that fails -/

def reportStore : FileOutputStore where
  project_id := 1
  tool_run_id := 9
  max_output_bytes := 4
  max_produced_artifacts := 1

def reportDigest (data : Bytes) : String :=
  if data = [1, 2, 3] then "039058c6f2c0cb492c533b0a4d14ef77cc0f78abccced5287d84a1a2011cfb81"
  else "787c798e39a5bc1910355bae6d0cd87a36b2e10fd0202a83e3bb6b005da83472"

def report (data : Bytes) : StoreRequest where
  filename := "report.txt"
  data := data

/-- The steps of a call that succeeds. -/
def storeOne (k : ℕ) (id : Uuid) (data : Bytes) : List OutputAction :=
  [.store k (report data), .checkBytes k, .checkCount k, .storeBlob k .answered "",
    .createArtifact k id .answered "", .linkArtifact k .answered "", .addBytes k, .addArtifact k]

/-- One call, and then another, which exceeds the quota of artifacts. -/
def oneAfterTheOther : List OutputAction :=
  storeOne 0 20 [1, 2, 3] ++ [.store 1 (report [4]), .checkBytes 1, .checkCount 1]

/-- Both calls check before either has counted anything. -/
def bothChecked : List OutputAction :=
  [.store 0 (report [1, 2, 3]), .checkBytes 0, .checkCount 0, .store 1 (report [4, 5, 6]),
    .checkBytes 1, .checkCount 1, .storeBlob 0 .answered "", .createArtifact 0 20 .answered "",
    .storeBlob 1 .answered "", .createArtifact 1 21 .answered ""]

lemma countsArtifacts_oneAfterTheOther (digest : Bytes → String) :
    Along (OutputState.step reportStore digest) CountsArtifacts .init oneAfterTheOther := by
  apply Along.cons rfl trivial
  apply Along.cons rfl trivial
  apply Along.cons rfl
  · refine ⟨?_, Nat.lt_of_sub_eq_succ rfl⟩
    rintro (_ | j) hj
    · exact absurd rfl hj
    · rfl
  apply Along.cons rfl trivial
  apply Along.cons rfl
  · exact Execution.noConfusion
  apply Along.cons rfl
  · rfl
  apply Along.cons rfl trivial
  apply Along.cons rfl trivial
  apply Along.cons rfl trivial
  apply Along.cons rfl trivial
  apply Along.cons rfl
  · refine ⟨?_, Nat.lt_of_sub_eq_succ rfl⟩
    rintro (_ | _ | j) hj
    · rfl
    · exact absurd rfl hj
    · rfl
  trivial

lemma countsBytes_oneAfterTheOther (digest : Bytes → String) :
    Along (OutputState.step reportStore digest) CountsBytes .init oneAfterTheOther := by
  apply Along.cons rfl trivial
  apply Along.cons rfl
  · intro req hreq
    cases hreq
    refine ⟨?_, Nat.lt_of_sub_eq_succ rfl⟩
    rintro (_ | j) hj
    · exact absurd rfl hj
    · rfl
  apply Along.cons rfl trivial
  apply Along.cons rfl
  · intro he
    cases he
  apply Along.cons rfl
  · intro he
    exact absurd rfl he
  apply Along.cons rfl
  · intro he
    exact absurd rfl he
  apply Along.cons rfl trivial
  apply Along.cons rfl trivial
  apply Along.cons rfl trivial
  apply Along.cons rfl
  · intro req hreq
    cases hreq
    refine ⟨?_, Nat.lt_of_sub_eq_succ rfl⟩
    rintro (_ | _ | j) hj
    · rfl
    · exact absurd rfl hj
    · rfl
  exact Along.cons rfl trivial trivial

theorem outputQuotas_oneAfterTheOther :
    ∃ s, exec (OutputState.step reportStore reportDigest) .init oneAfterTheOther = some s ∧
      s.artifacts.rows.length ≤ 1 ∧ s.totalBytes ≤ 4 := by
  obtain ⟨s, h⟩ : ∃ s,
      exec (OutputState.step reportStore reportDigest) .init oneAfterTheOther = some s := ⟨_, rfl⟩
  obtain ⟨hartifacts, hbytes⟩ := outputQuotas_kept h
  exact ⟨s, h, hartifacts (countsArtifacts_oneAfterTheOther _),
    hbytes (countsBytes_oneAfterTheOther _)⟩

/-- Two artifacts with six bytes are created, for a quota of one with four. -/
theorem not_outputQuotas_bothChecked :
    ∃ s, exec (OutputState.step reportStore reportDigest) .init bothChecked = some s ∧
      ¬ (s.artifacts.rows.length ≤ reportStore.max_produced_artifacts.toNat) ∧
      ¬ (s.totalBytes ≤ reportStore.max_output_bytes.toNat) :=
  ⟨_, rfl, by decide, by decide⟩

end Arbeiterfarm.Storage
