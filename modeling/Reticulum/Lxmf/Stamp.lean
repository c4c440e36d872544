import Reticulum.Lxmf.Message
import Reticulum.Lxmf.Sha

/-!
# The search for a stamp

A stamp job of `src/lxmf/lxmf.c` puts the rounds of the work block into a digest and then tries one
nonce after the other, in units of which a poll does at most as many as it is told. `Reached` says
where a job is after a number of units: in the rounds, among the nonces with none found so far, at
the first nonce that meets the cost, or at the end of its 64-bit counter of attempts. One unit leads
from one such place to the next (`Reached.unit`), so it does not matter how the units were divided
into polls. What was put into the context of the digest is one string here, as
`shaFinal_stampWorkblock` allows.
-/

namespace Reticulum.Lxmf

open List Nat Octets
open Bytes (beDecode)
open Resource (mpPutUint)

/-! ## The job -/

/-- `LXMF_STAMP_WORKBLOCK_ROUNDS`. -/
def workblockRounds : ℕ := 3000

/-- `LXMF_STAMP_POLL_MAX_UNITS`. -/
def pollMaxUnits : ℕ := 64

/-- What a job computes with: a digest, and `rns_hkdf_sha256` of an id and a salt. -/
structure StampFunctions where
  sha256 : List UInt8 → Octets 32
  hkdf : Octets 32 → Octets 32 → Octets 256

/-- `lxmf_stamp_state_t`. -/
inductive StampState
  | preparing
  | searching
  | complete
  | cancelled
  | failed
deriving DecidableEq, Repr

/-- `struct lxmf_stamp_job`, with the fields of its progress. `hashed` is what was put into its
digest. -/
structure StampJob where
  id : Octets 32
  nonce : Octets 32
  cost : UInt8
  value : UInt8
  rounds : ℕ
  hashed : List UInt8
  state : StampState
  prepared_rounds : ℕ
  attempts : ℕ
  result : Status

/-- A round of the work block. -/
def workRound (f : StampFunctions) (id : Octets 32) (n : ℕ) : List UInt8 :=
  (f.hkdf id (f.sha256 (id.bytes ++ mpPutUint n))).bytes

/-- The work block that `stamp_workblock` makes. -/
def stampWorkblock (f : StampFunctions) (id : Octets 32) (rounds : ℕ) : List UInt8 :=
  (range rounds).flatMap (workRound f id)

/-- A context that takes in the rounds one after the other, and in a copy a nonce, gives the digest
of the work block with the nonce. -/
theorem shaFinal_stampWorkblock (block : Octets 64) (f : StampFunctions) (id nonce : Octets 32)
    {rounds : ℕ} (h : rounds ≤ workblockRounds) :
    shaFinal (shaUpdate (((List.range rounds).map (workRound f id)).foldl shaUpdate
      (shaInit block)) nonce.bytes) = Sha256.digest (stampWorkblock f id rounds ++ nonce.bytes) := by
  have hrounds := holds_updates (holds_init block) ((List.range rounds).map (workRound f id))
  refine shaFinal_eq (holds_update hrounds nonce.bytes) ?_
  have hlength : (stampWorkblock f id rounds).length = rounds * 256 := by
    simp [stampWorkblock, workRound]
  rw [length_append, hlength, Octets.length_eq]
  unfold workblockRounds at h
  omega

/-- The loop of `digest_value`, whose sum is a byte. -/
def leadingZeros : List UInt8 → UInt8
  | [] => 0
  | b :: rest => if b = 0 then 8 + leadingZeros rest else UInt8.ofNat (7 - b.toNat.log2)

/-- `digest_value`. -/
def digestValue (d : Octets 32) : UInt8 := leadingZeros d.bytes

/-- The loop that counts a nonce up, from its last byte on. -/
def carry : List UInt8 → List UInt8
  | [] => []
  | b :: rest => if b + 1 ≠ 0 then (b + 1) :: rest else (b + 1) :: carry rest

/-- The next nonce. -/
def nextNonce (nonce : Octets 32) : Octets 32 :=
  ofList 32 (carry nonce.bytes.reverse).reverse

namespace StampJob

/-- `lxmf_stamp_job_create_expanded`, with the nonce that is given or drawn. -/
def createExpanded (id : Octets 32) (cost : UInt8) (rounds : ℕ) (nonce : Octets 32) :
    Except Status StampJob :=
  if cost = 0 ∨ rounds = 0 ∨ workblockRounds < rounds then .error .argument
  else .ok ⟨id, nonce, cost, 0, rounds, [], .preparing, 0, 0, .pending⟩

/-- One unit of work. -/
def unit (f : StampFunctions) (j : StampJob) : StampJob :=
  if j.state = .preparing then
    { j with
      hashed := j.hashed ++ workRound f j.id j.prepared_rounds
      prepared_rounds := j.prepared_rounds + 1
      state := if j.prepared_rounds + 1 = j.rounds then .searching else .preparing }
  else if j.attempts = 2 ^ 64 - 1 then { j with state := .failed, result := .bounds }
  else if digestMeets (f.sha256 (j.hashed ++ j.nonce.bytes)) j.cost then
    { j with
      attempts := j.attempts + 1
      value := digestValue (f.sha256 (j.hashed ++ j.nonce.bytes))
      state := .complete
      result := .ok }
  else { j with attempts := j.attempts + 1, nonce := nextNonce j.nonce }

/-- The loop of a poll. -/
def work (f : StampFunctions) : ℕ → StampJob → StampJob
  | 0, j => j
  | budget + 1, j => if j.result = .pending then work f budget (j.unit f) else j

/-- `lxmf_stamp_job_poll`. -/
def poll (f : StampFunctions) (j : StampJob) (budget : ℕ) : Status × StampJob :=
  if pollMaxUnits < budget then (.argument, j)
  else ((j.work f budget).result, j.work f budget)

/-- `lxmf_stamp_job_cancel`. -/
def cancel (j : StampJob) : StampJob :=
  if j.result = .pending then { j with state := .cancelled, result := .cancelled } else j

/-- `lxmf_stamp_job_result`. -/
def stamp (j : StampJob) : Except Status (Octets 32 × UInt8) :=
  if j.result ≠ .ok then .error j.result else .ok (j.nonce, j.value)

/-- A job after polls. -/
def polls (f : StampFunctions) (j : StampJob) (budgets : List ℕ) : StampJob :=
  budgets.foldl (fun j budget => (j.poll f budget).2) j

end StampJob

/-- `lxmf_pow_stamp_validate_expanded`: the status, and the value that it writes. -/
def powStampValidateExpanded (f : StampFunctions) (id : Octets 32) (cost : UInt8) (rounds : ℕ)
    (stamp : Octets 32) : Status × Option UInt8 :=
  if cost < 1 ∨ rounds = 0 ∨ workblockRounds < rounds then (.argument, none)
  else
    let d := f.sha256 (stampWorkblock f id rounds ++ stamp.bytes)
    (if digestMeets d cost then .ok else .format, some (digestValue d))

/-! ## Counting nonces -/

/-- The nonce that is tried after `k` others. -/
def nonceAt (start : Octets 32) (k : ℕ) : Octets 32 := nextNonce^[k] start

theorem length_carry (bytes : List UInt8) : (carry bytes).length = bytes.length := by
  induction bytes with
  | nil => rfl
  | cons b rest ih =>
    rw [carry]
    split
    · rfl
    · rw [length_cons, ih, length_cons]

theorem beDecode_concat (bytes : List UInt8) (b : UInt8) :
    beDecode (bytes ++ [b]) = beDecode bytes * 256 + b.toNat := by
  simp [beDecode]

/-- Counting up is modulo the range. -/
theorem beDecode_carry (bytes : List UInt8) :
    beDecode (carry bytes).reverse = (beDecode bytes.reverse + 1) % 256 ^ bytes.length := by
  induction bytes with
  | nil => rfl
  | cons b rest ih =>
    have hlt := Bytes.beDecode_lt rest.reverse
    rw [length_reverse] at hlt
    have hbyte : ∀ b : UInt8, if b + 1 ≠ 0 then (b + 1).toNat = b.toNat + 1 ∧ b.toNat < 255
        else (b + 1).toNat = 0 ∧ b.toNat = 255 := by decide +kernel
    specialize hbyte b
    rw [carry, reverse_cons, beDecode_concat, length_cons, pow_succ]
    split_ifs at hbyte ⊢
    · rw [reverse_cons, beDecode_concat, hbyte.1, mod_eq_of_lt (by omega)]
      omega
    · rw [reverse_cons, beDecode_concat, hbyte.1, hbyte.2, ih, add_assoc,
        show beDecode rest.reverse * 256 + (255 + 1) = (beDecode rest.reverse + 1) * 256 by ring,
        mul_mod_mul_right, add_zero]

/-- The nonces are the numbers from the start on, modulo their range. -/
theorem beDecode_nonceAt (start : Octets 32) (k : ℕ) :
    beDecode (nonceAt start k).bytes = (beDecode start.bytes + k) % 2 ^ 256 := by
  induction k with
  | zero =>
    have hlt := Bytes.beDecode_lt start.bytes
    exact (mod_eq_of_lt (hlt.trans_eq (by norm_num))).symm
  | succ k ih =>
    have hlength : (carry (nonceAt start k).bytes.reverse).reverse.length = 32 := by
      simp [length_carry]
    rw [nonceAt, Function.iterate_succ_apply', ← nonceAt, nextNonce, bytes_ofList hlength.ge,
      take_of_length_le hlength.le, beDecode_carry, reverse_reverse, ih,
      length_reverse, length_eq]
    omega

/-! ## Where a job is -/

section

variable (f : StampFunctions) (job : StampJob)

/-- The digest of a nonce over the whole work block. -/
def nonceDigest (k : ℕ) : Octets 32 :=
  f.sha256 (stampWorkblock f job.id job.rounds ++ (nonceAt job.nonce k).bytes)

/-- None of the first nonces meets the cost. -/
def NoneBefore (n : ℕ) : Prop := ∀ k < n, ¬ digestMeets (nonceDigest f job k) job.cost

/-- The job with its rounds done and `k` nonces tried. -/
def StampJob.tried (k : ℕ) : StampJob :=
  { job with
    nonce := nonceAt job.nonce k
    hashed := stampWorkblock f job.id job.rounds
    state := .searching
    prepared_rounds := job.rounds
    attempts := k }

/-- Where a new job is after a number of units: it is pending in its rounds or among the nonces, or
it ended with the first nonce that meets the cost, or its counter ran out before there was one. -/
inductive Reached : ℕ → StampJob → Prop
  | preparing {n : ℕ} (h : n < job.rounds) : Reached n
    { job with hashed := stampWorkblock f job.id n, prepared_rounds := n }
  | searching {k : ℕ} (hk : k < 2 ^ 64) (hnone : NoneBefore f job k) :
    Reached (job.rounds + k) (job.tried f k)
  | complete {n k : ℕ} (hnone : NoneBefore f job k)
    (hmeets : digestMeets (nonceDigest f job k) job.cost) : Reached n
    { job.tried f k with
      attempts := k + 1
      value := digestValue (nonceDigest f job k)
      state := .complete
      result := .ok }
  | failed {n : ℕ} (hnone : NoneBefore f job (2 ^ 64 - 1)) : Reached n
    { job.tried f (2 ^ 64 - 1) with state := .failed, result := .bounds }

end

section

variable {f : StampFunctions} {id start : Octets 32} {cost : UInt8} {rounds n : ℕ}
  {job j : StampJob}

/-- A job that has ended does not change. -/
theorem work_of_ended (h : j.result ≠ .pending) (units : ℕ) : j.work f units = j := by
  cases units <;> simp [StampJob.work, h]

theorem work_add (a b : ℕ) (j : StampJob) : j.work f (a + b) = (j.work f a).work f b := by
  induction a generalizing j with
  | zero => rw [zero_add, StampJob.work]
  | succ a ih =>
    rw [add_right_comm, StampJob.work, StampJob.work]
    split
    · exact ih _
    · exact (work_of_ended ‹_› b).symm

/-- The units of the polls that are not refused. -/
def unitsOf (budgets : List ℕ) : ℕ := (budgets.filter (· ≤ pollMaxUnits)).sum

/-- Polls do their units, however these are divided. -/
theorem polls_eq_work (budgets : List ℕ) : j.polls f budgets = j.work f (unitsOf budgets) := by
  induction budgets generalizing j with
  | nil => rfl
  | cons budget budgets ih =>
    rw [StampJob.polls, foldl_cons, ← StampJob.polls, ih, StampJob.poll, unitsOf, unitsOf]
    split
    · rw [filter_cons_of_neg (by simpa using ‹_›)]
    · rw [filter_cons_of_pos (by simpa using not_lt.1 ‹_›), sum_cons, work_add]

variable (h : StampJob.createExpanded id cost rounds start = .ok job)
include h

/-- One more unit leads to the next place. -/
theorem Reached.unit (hreached : Reached f job n j) :
    Reached f job (n + 1) (if j.result = .pending then j.unit f else j) := by
  rw [StampJob.createExpanded] at h
  split_ifs at h
  cases h
  cases hreached with
  | preparing hn =>
    have hround : stampWorkblock f id (n + 1) = stampWorkblock f id n ++ workRound f id n := by
      simp [stampWorkblock, range_succ]
    rw [if_pos rfl, StampJob.unit, if_pos rfl, ← hround]
    dsimp only at hn ⊢
    split_ifs with hlast
    · subst hlast
      exact .searching (k := 0) (by norm_num) nofun
    · exact .preparing (lt_of_le_of_ne hn ‹_›)
  | searching hk hnone =>
    rename_i k
    change Reached f _ _ (.unit f (.tried f _ k))
    rw [StampJob.unit, if_neg nofun]
    split
    · rename_i hend
      obtain rfl : k = 2 ^ 64 - 1 := hend
      exact .failed hnone
    rename_i hend
    split_ifs with hmeets
    · exact .complete hnone ‹_›
    · have hnext : NoneBefore f _ (k + 1) := fun i hi =>
        (Nat.lt_succ_iff_lt_or_eq.1 hi).elim (hnone i) fun heq => heq ▸ hmeets
      have hk : k + 1 < 2 ^ 64 := lt_of_le_of_ne hk fun heq => hend (Nat.succ.inj heq)
      have hsearching := Reached.searching hk hnext
      rw [StampJob.tried, nonceAt, Function.iterate_succ_apply'] at hsearching
      exact hsearching
  | complete hnone hmeets => exact .complete hnone hmeets
  | failed hnone => exact .failed hnone

/-- So a job is at the place that its units lead to. -/
theorem Reached.work (hreached : Reached f job n j) (units : ℕ) :
    Reached f job (n + units) (j.work f units) := by
  induction units generalizing n j with
  | zero => exact hreached
  | succ units ih =>
    have hnext := ih (hreached.unit h)
    rw [add_assoc, add_comm 1] at hnext
    rw [StampJob.work]
    split_ifs at hnext ⊢ with hpending
    · exact hnext
    · rwa [work_of_ended hpending] at hnext

theorem reached_polls (f : StampFunctions) (budgets : List ℕ) :
    Reached f job (unitsOf budgets) (job.polls f budgets) := by
  have hstart : Reached f job 0 job := by
    rw [StampJob.createExpanded] at h
    split_ifs at h with hbad
    cases h
    exact .preparing (by dsimp only; omega)
  have hwork := hstart.work h (unitsOf budgets)
  rwa [zero_add, ← polls_eq_work] at hwork

/-- The search is the plain one. Its nonces are the numbers from the start on, its polls matter by
their units alone, its stamp is valid, and a job that was cancelled does not change. -/
theorem stamp_search_plain (f : StampFunctions) (budgets : List ℕ) :
    Reached f job (unitsOf budgets) (job.polls f budgets) ∧
    (∀ k, beDecode (nonceAt job.nonce k).bytes = (beDecode start.bytes + k) % 2 ^ 256) ∧
    (∀ other, unitsOf other = unitsOf budgets → job.polls f other = job.polls f budgets) ∧
    (∀ stamp value, (job.polls f budgets).stamp = .ok (stamp, value) →
      powStampValidateExpanded f id cost rounds stamp = (.ok, some value)) ∧
    ∀ more, (job.polls f budgets).cancel.polls f more = (job.polls f budgets).cancel := by
  have hreached := reached_polls h f budgets
  rw [StampJob.createExpanded] at h
  split_ifs at h with hbad
  cases h
  refine ⟨hreached, beDecode_nonceAt start, fun other hunits => ?_, fun stamp value hstamp => ?_,
    fun more => ?_⟩
  · rw [polls_eq_work, polls_eq_work, hunits]
  · generalize StampJob.polls f _ budgets = j at hreached hstamp
    generalize unitsOf budgets = n at hreached
    cases hreached with
    | preparing | searching | failed => cases hstamp
    | complete hnone hmeets =>
      cases hstamp
      have hgood : ¬ (cost < 1 ∨ rounds = 0 ∨ workblockRounds < rounds) := by
        simpa [UInt8.lt_one_iff] using hbad
      rw [powStampValidateExpanded, if_neg hgood]
      exact Prod.ext (if_pos hmeets) rfl
  · rw [polls_eq_work]
    refine work_of_ended ?_ _
    rw [StampJob.cancel]
    split
    · exact nofun
    · assumption

end

/-- A digest with all its bits alike. -/
def constantDigest (b : UInt8) : StampFunctions :=
  ⟨fun _ => ⟨replicate 32 b, length_replicate⟩, fun _ _ => zero 256⟩

/-- With a digest of zeros the first nonce is the stamp. -/
theorem stamp_search_plain_first : ∃ job,
    StampJob.createExpanded (zero 32) 1 1 (zero 32) = .ok job ∧
      (job.polls (constantDigest 0) [1, 1]).stamp = .ok (zero 32, 0) ∧
      powStampValidateExpanded (constantDigest 0) (zero 32) 1 1 (zero 32) =
        (.ok, some 0) :=
  ⟨_, rfl, rfl, (stamp_search_plain rfl (constantDigest 0) [1, 1]).2.2.2.1 _ _ rfl⟩

/-- With a digest that no nonce makes small enough the job ends when its counter is full. -/
theorem counter_runs_out : ∃ job,
    StampJob.createExpanded (zero 32) 1 1 (zero 32) = .ok job ∧
      (job.polls (constantDigest 255) (replicate (2 ^ 59) 64)).result = .bounds := by
  refine ⟨_, rfl, ?_⟩
  have hreached := @reached_polls (zero 32) (zero 32) 1 1 _ rfl (constantDigest 255)
    (replicate (2 ^ 59) 64)
  have hunits : 2 ^ 65 = unitsOf (replicate (2 ^ 59) 64) := by
    rw [unitsOf, filter_replicate_of_pos (by decide), sum_replicate]
    norm_num
  generalize StampJob.polls _ _ (replicate (2 ^ 59) 64) = j at hreached ⊢
  generalize unitsOf (replicate (2 ^ 59) 64) = n at hreached hunits
  cases hreached with
  | preparing hlt | searching hlt => dsimp only at hlt hunits; omega
  | complete hnone hmeets =>
    exact absurd hmeets (show ¬ digestMeets ⟨replicate 32 255, length_replicate⟩ 1 by decide)
  | failed => rfl

end Reticulum.Lxmf
