import LedgerClient.Proofs.Octets.TextForm
import LedgerClient.Proofs.Signing.Composition
import LedgerClient.Proofs.Wait.Course

/-!
# By what a wait knows its transaction

A record is held against a text, and the case of letters does not count. By its hash a transaction
is known exactly: the records that meet the expectation are those whose text is read as that hash
(`isMetBy_hash_iff`). A signature is a text that nobody reads, and one that is missing from the
record stands as the empty text; so a record without a signature meets the expectation of the empty
text and of no other (`isMetBy_signature_of_none`).
-/

set_option autoImplicit false

namespace LedgerClient

open LetterCase

/-- The record has a signature, and it is this one up to the case of its letters. -/
def Record.CarriesSignature (r : Record) (text : String) : Prop :=
  ∃ signature, r.signature = some signature ∧ SameText signature text

namespace Expectation

variable {r : Record} {text : String} {digest : Digest}

theorem lowerCase_eq_iff {a b : String} :
    lowerCase a = lowerCase b ↔ a.toList.map Char.toLower = b.toList.map Char.toLower := by
  rw [lowerCase, lowerCase, String.ofList_inj]

@[simp] theorem map_toLower_lowerCase (text : String) :
    (lowerCase text).toList.map Char.toLower = text.toList.map Char.toLower := by
  simp [lowerCase]

@[simp] theorem sameText_empty_iff : SameText "" text ↔ text = "" := by
  rw [SameText, String.toList_empty, List.forall₂_nil_left_iff, String.toList_eq_nil_iff]

theorem isMetBy_signature_iff :
    (signature text).isMetBy r = true ↔
      r.CarriesSignature text ∨ (r.signature = none ∧ text = "") := by
  have compared : (signature text).isMetBy r = true ↔ SameText (r.signature.getD "") text := by
    rw [isMetBy, beq_iff_eq, lowerCase_eq_iff, expected, observed, map_toLower_lowerCase]
    exact map_toLower_eq_iff
  rw [compared, Record.CarriesSignature]
  cases shown : r.signature with
  | none => simp
  | some other => simp

theorem isMetBy_signature_of_none (unsigned : r.signature = none) :
    (signature text).isMetBy r = true ↔ text = "" := by
  rw [isMetBy_signature_iff, Record.CarriesSignature, unsigned]
  simp

/-- What meets the expectation of a hash is read as this hash. -/
@[simp] theorem isMetBy_hash_iff :
    (hash digest).isMetBy r = true ↔ Octets.ofHex .digest r.hash = .ok digest := by
  have lower : digest.hex.toList.map Char.toLower = digest.hex.toList := by
    simp
  have unmarked : Octets.digits .digest r.hash = r.hash := rfl
  rw [Octets.ofHex_eq_ok_iff, unmarked, isMetBy, beq_iff_eq, lowerCase_eq_iff, expected, observed,
    lower]

end Expectation

namespace Wait

section Found

variable {w : Wait} {tokenFirst : Nat → Bool} {tape : List TimedAnswer} {token : Option Nat}
  {t : Tracker} {record : Record}

/-- A record that a wait hands out is one that it expects. -/
theorem isMetBy_of_found
    (found : (w.run tokenFirst tape 0 token t).outcome = some (.ok record)) :
    w.expectation.isMetBy record = true := by
  rcases (w.course_of_run tokenFirst tape 0 token t).endsAt_of_outcome found with
    cancelled | timedOut | ⟨i, call, -, -, decides⟩
  · cases cancelled
  · cases timedOut
  · generalize call.answer = answer at decides
    cases decides with
    | found accepted holds expected executed => exact expected

theorem settle_of_unmet (unmet : w.expectation.isMetBy record = false) :
    w.settle record =
      .error (.mismatch w.expectation.expected (w.expectation.observed record)) := by
  rw [settle, unmet]
  rfl

theorem settle_of_met (met : w.expectation.isMetBy record = true) :
    w.settle record =
      if record.status.isExecuted then .ok record else .error (.failed record.status) := by
  rw [settle, met]
  cases record.status.isExecuted <;> rfl

/-- A record that the tracker accepts decides, by what the wait makes of it. -/
theorem decides_settle {response : Response (Option Record)}
    (accepted : t.Accepts response.chainId response.state) (holds : response.result = some record) :
    w.Decides t (.ok response) (w.settle record) := by
  cases met : w.expectation.isMetBy record with
  | false =>
    rw [settle_of_unmet met]
    exact .mismatch accepted holds met
  | true =>
    rw [settle_of_met met]
    cases executed : record.status.isExecuted with
    | false => exact .failed accepted holds met executed
    | true => exact .found accepted holds met executed

end Found

/-- A wait by a signature hands out a record only if the record has this signature, or if it has none
and the empty text was asked for. An accepted record without a signature ends the wait as that of
another transaction, unless the empty text was asked for; then the wait takes it for the record of
its transaction. -/
theorem found_carries_signature (w : Wait) (tokenFirst : Nat → Bool) (tape : List TimedAnswer)
    (token : Option Nat) (t : Tracker) (text : String)
    (bySignature : w.expectation = .signature text) :
    (∀ record, (w.run tokenFirst tape 0 token t).outcome = some (.ok record) →
      record.CarriesSignature text ∨ (record.signature = none ∧ text = "")) ∧
    ∀ i call response record, tape[i]? = some call →
      i < (w.run tokenFirst tape 0 token t).calls.length → call.answer = .ok response →
      (t.afterCalls (tape.take i)).Accepts response.chainId response.state →
      response.result = some record → record.signature = none →
      (text ≠ "" → (w.run tokenFirst tape 0 token t).EndsAt i
        (.error (.mismatch (Expectation.lowerCase text) ""))) ∧
      (text = "" → (w.run tokenFirst tape 0 token t).EndsAt i
        (if record.status.isExecuted then .ok record else .error (.failed record.status))) := by
  refine ⟨fun record found => ?_, ?_⟩
  · have met := isMetBy_of_found found
    rwa [bySignature, Expectation.isMetBy_signature_iff] at met
  · intro i call response record at? made answered accepted holds unsigned
    have ends := (w.course_of_run tokenFirst tape 0 token t).endsAt_of_decides at? made
      (answered ▸ decides_settle accepted holds)
    have met : w.expectation.isMetBy record = true ↔ text = "" := by
      rw [bySignature, Expectation.isMetBy_signature_of_none unsigned]
    refine ⟨fun asked => ?_, fun asked => ?_⟩
    · have unmet : w.expectation.isMetBy record = false :=
        Bool.eq_false_iff.2 fun h => asked (met.1 h)
      rw [settle_of_unmet unmet, bySignature, Expectation.observed, unsigned] at ends
      exact ends
    · rwa [settle_of_met (met.2 asked)] at ends

namespace Sample

/-- The record of a transaction that nobody signed. -/
def unsigned : Record := { record with body := { Record.Body.empty with kind := "blockmetadata" } }

def unsignedTape : List TimedAnswer := [⟨10, false, .ok ⟨some unsigned, 2, ⟨6, 9⟩⟩⟩]

/-- A wait by the empty text. -/
def emptyWait : Wait := { wait with expectation := .signature "" }

end Sample

/-- A record without a signature is not the one with the signature that is waited for. -/
theorem unsigned_record_is_refused :
    Sample.unsigned.signature = none ∧ "aB" ≠ "" ∧
      (Sample.wait.run (fun _ => false) Sample.unsignedTape 0 none Sample.tracker).EndsAt 0
        (.error (.mismatch "ab" "")) :=
  ⟨rfl, by decide, ((found_carries_signature Sample.wait (fun _ => false) Sample.unsignedTape none
    Sample.tracker "aB" rfl).2 0 ⟨10, false, .ok ⟨some Sample.unsigned, 2, ⟨6, 9⟩⟩⟩ _ _ rfl
    (by decide) rfl ⟨rfl, by decide, by decide⟩ rfl rfl).1 (by decide)⟩

/-- A wait by the empty text hands out a record without a signature. -/
theorem unsigned_record_is_found :
    Sample.emptyWait.expectation = .signature "" ∧ Sample.unsigned.signature = none ∧
      (Sample.emptyWait.run (fun _ => false) Sample.unsignedTape 0 none Sample.tracker).outcome =
        some (.ok Sample.unsigned) :=
  ⟨rfl, rfl, rfl⟩

/-- A record meets the expectation of a hash if its text is read as that hash, so it meets that of
one hash at most; and a wait for a signed transaction hands out a record only if the text of the
record is read as the hash under which the transaction is committed. -/
theorem hash_is_met_by_its_texts :
    (∀ (digest : Digest) (record : Record), (Expectation.hash digest).isMetBy record = true ↔
        Octets.ofHex .digest record.hash = .ok digest) ∧
      (∀ (signed : SignedTransaction) (timeout pollInterval : Nat) (tokenFirst : Nat → Bool)
        (tape : List TimedAnswer) (t : Tracker) (record : Record),
        ((ofSigned signed timeout pollInterval).run tokenFirst tape 0 none t).outcome =
            some (.ok record) →
          Octets.ofHex .digest record.hash = .ok (Transaction.user signed).hash) ∧
      ∀ (digest other : Digest) (record : Record),
        (Expectation.hash digest).isMetBy record = true →
          (Expectation.hash other).isMetBy record = true → digest = other := by
  refine ⟨fun _ _ => Expectation.isMetBy_hash_iff, ?_, ?_⟩
  · intro signed timeout pollInterval tokenFirst tape t record found
    have byHash : (ofSigned signed timeout pollInterval).expectation = .hash signed.hash := rfl
    have met := isMetBy_of_found found
    rwa [byHash, Expectation.isMetBy_hash_iff, signed.hash_eq_hash_user] at met
  · intro digest other record met met'
    have read := Expectation.isMetBy_hash_iff.1 met
    rw [Expectation.isMetBy_hash_iff.1 met'] at read
    exact (Except.ok.inj read).symm

namespace Sample

/-- The record of a signed transaction. -/
def hashedRecord : Record := { record with hash := LedgerClient.Sample.signed.hash.hex }

def hashedTape : List TimedAnswer := [⟨10, false, .ok ⟨some hashedRecord, 2, ⟨6, 9⟩⟩⟩]

end Sample

/-- The hash of the transaction is not computed here. -/
theorem signed_transaction_is_found :
    ((ofSigned Sample.signed 1000 100).run (fun _ => false) Sample.hashedTape 0 none
        Sample.tracker).outcome = some (.ok Sample.hashedRecord) ∧
      Octets.ofHex .digest Sample.hashedRecord.hash = .ok (Transaction.user Sample.signed).hash ∧
      (Expectation.hash Sample.signed.hash).isMetBy Sample.hashedRecord = true := by
  have met : (Expectation.hash Sample.signed.hash).isMetBy Sample.hashedRecord = true :=
    beq_self_eq_true (Expectation.lowerCase Sample.signed.hash.hex)
  have course : (ofSigned Sample.signed 1000 100).Course none Sample.tracker 0 Sample.hashedTape
      (.prepend 0 (.ending (.ok Sample.hashedRecord) 10 ⟨2, ⟨6, 9⟩⟩)) :=
    .decided rfl (by decide) (.found ⟨rfl, by decide, by decide⟩ rfl met rfl)
  have found : ((ofSigned Sample.signed 1000 100).run (fun _ => false) Sample.hashedTape 0 none
      Sample.tracker).outcome = some (.ok Sample.hashedRecord) := by
    rw [course.run_eq]
    rfl
  exact ⟨found, hash_is_met_by_its_texts.2.1 _ _ _ _ _ _ _ found, met⟩

end Wait

end LedgerClient
