import IDevice.Message.Lengths
import IDevice.Wire.Fragmenter

/-!
# `Wire.Reports` — what `TransmitMessage` reports about its transmitter

The flags of the transmitter are looked at in one place only, the macro of the multi-fragment branch,
and the serializers of `DTXMessage` and `DTXPrimitiveArray` drop what the macro makes of them. So
`TransmitMessage` returns the constant of its branch, and goes on after a failure with the next write.

With several fragments the flag is `false`, so the report is true exactly when a call failed and none
came after it. `FailsLast` says which patterns of answers do that. The first failure is followed
through the loop: the fragmenter is `Underway` before it, and then either keeps a full buffer
(`HeaderFailed`), which the next write sends again, or has dropped it (`PayloadFailed`), and is quiet
until the writes that follow fill it once more.
-/

namespace IDevice

/-- The transmitter that answers its `i`-th call with `accepts i`, and keeps the answers. -/
def answering (accepts : Nat → Bool) : Transmitter (List Bool) :=
  fun answers _ => (accepts answers.length, answers ++ [accepts answers.length])

/-- The flag says whether all calls were accepted, and no call follows one that was not. -/
structure ReportsTruth (ret : Bool) (answers : List Bool) : Prop where
  truth : ret = true ↔ ∀ answer ∈ answers, answer = true
  stops : ∀ before after, answers = before ++ false :: after → after = []

/-- Call `i` is the first that is not accepted. -/
def FirstFails (accepts : Nat → Bool) (i : Nat) : Prop := accepts i = false ∧ ∀ k < i, accepts k = true

/-- The writes behind the one that holds the last of the first `e` bytes. -/
def restAfter : Nat → List Bytes → List Bytes
  | _, [] => []
  | e, w :: ws => if e ≤ w.length then ws else restAfter (e - w.length) ws

/-- From position `pos` on: the first failure is the header of piece `j` and no write follows the one in
    which that piece ends, or it is the payload of piece `j` and the writes behind do not fill another
    piece. -/
def FailsLastFrom (accepts : Nat → Bool) (D L pos : Nat) (ws : List Bytes) : Prop :=
  ∃ j, 0 < j ∧ (j - 1) * D < L ∧ pos < pieceEnd D L j ∧ pieceEnd D L j ≤ pos + ws.flatten.length ∧
    (FirstFails accepts (2 * j - 1) ∧ restAfter (pieceEnd D L j - pos) ws = [] ∨
      FirstFails accepts (2 * j) ∧ (restAfter (pieceEnd D L j - pos) ws = [] ∨
        (restAfter (pieceEnd D L j - pos) ws).flatten.length < min D (L - pieceEnd D L j)))

/-- The first failure is the last call: one of those of `FailsLastFrom`, or the header in front of the
    pieces when the writes do not fill a single one. -/
def FailsLast (accepts : Nat → Bool) (D L : Nat) (ws : List Bytes) : Prop :=
  FirstFails accepts 0 ∧ ws.flatten.length < D ∨ FailsLastFrom accepts D L 0 ws

theorem FirstFails.unique {accepts : Nat → Bool} {i k : Nat} (hi : FirstFails accepts i)
    (hk : FirstFails accepts k) : i = k := by
  rcases lt_trichotomy i k with hlt | heq | hlt
  · exact absurd (hk.2 i hlt) (by simp [hi.1])
  · exact heq
  · exact absurd (hi.2 k hlt) (by simp [hk.1])

/-! ## The answers of a run -/

/-- The answers to the first `n` calls. -/
def answersTo (accepts : Nat → Bool) (n : Nat) : List Bool := (List.range n).map accepts

@[simp] theorem answersTo_length (accepts : Nat → Bool) (n : Nat) : (answersTo accepts n).length = n := by
  simp [answersTo]

theorem answersTo_succ (accepts : Nat → Bool) (n : Nat) :
    answersTo accepts (n + 1) = answersTo accepts n ++ [accepts n] := by
  simp [answersTo, List.range_succ]

theorem answering_answersTo (accepts : Nat → Bool) (n : Nat) (bytes : Bytes) :
    answering accepts (answersTo accepts n) bytes = (accepts n, answersTo accepts (n + 1)) := by
  rw [answering, answersTo_length, answersTo_succ]

theorem answersTo_split (accepts : Nat → Bool) {k n : Nat} (hk : k < n) :
    answersTo accepts n = answersTo accepts k ++ accepts k :: (answersTo accepts n).drop (k + 1) := by
  obtain ⟨m, rfl⟩ := Nat.exists_eq_add_of_le (Nat.succ_le_of_lt hk)
  have hrange : answersTo accepts (k + 1 + m) =
      answersTo accepts (k + 1) ++ (List.range m).map (fun i => accepts (k + 1 + i)) := by
    simp [answersTo, List.range_add]
  have hdrop : (answersTo accepts (k + 1 + m)).drop (k + 1) =
      (List.range m).map (fun i => accepts (k + 1 + i)) := by
    rw [hrange, List.drop_left' (answersTo_length accepts (k + 1))]
  rw [Nat.succ_eq_add_one, hdrop, hrange, answersTo_succ, List.append_assoc, List.singleton_append]

theorem mem_answersTo {accepts : Nat → Bool} {n : Nat} :
    (∀ answer ∈ answersTo accepts n, answer = true) ↔ ∀ i < n, accepts i = true := by
  simp [answersTo]

/-- A flag of `true` is the truth when all calls are accepted. -/
theorem reportsTruth_true_iff (accepts : Nat → Bool) (n : Nat) :
    ReportsTruth true (answersTo accepts n) ↔ ∀ i < n, accepts i = true := by
  rw [← mem_answersTo]
  constructor
  · intro h
    exact h.truth.mp rfl
  · intro hall
    refine ⟨⟨fun _ => hall, fun _ => rfl⟩, ?_⟩
    intro before after heq
    exact absurd (hall false (by simp [heq])) (by simp)

/-- A flag of `false` is the truth, and no call came later, when the last call is the first to fail. -/
theorem reportsTruth_false_iff (accepts : Nat → Bool) (n : Nat) :
    ReportsTruth false (answersTo accepts (n + 1)) ↔ FirstFails accepts n := by
  constructor
  · intro h
    obtain ⟨i, hi, hfail⟩ : ∃ i, i < n + 1 ∧ accepts i = false := by
      by_contra hnone
      have hall : ∀ i < n + 1, accepts i = true := fun i hi => by
        by_contra hne
        exact hnone ⟨i, hi, by simpa using hne⟩
      exact absurd (h.truth.mpr (mem_answersTo.mpr hall)) (by simp)
    -- any failure is at the end, so there is only the one
    have hlast (k : Nat) (hk : k < n + 1) (hfail : accepts k = false) : k = n := by
      have hsplit := answersTo_split accepts hk
      rw [hfail] at hsplit
      have hnil := congrArg List.length (h.stops _ _ hsplit)
      rw [List.length_drop, answersTo_length, List.length_nil] at hnil
      omega
    obtain rfl := hlast i hi hfail
    refine ⟨hfail, fun k hk => ?_⟩
    by_contra hne
    have := hlast k (by omega) (by simpa using hne)
    omega
  · intro h
    refine ⟨⟨fun hret => absurd hret (by simp), fun hall => ?_⟩, ?_⟩
    · exact absurd (mem_answersTo.mp hall n (Nat.lt_succ_self n)) (by simp [h.1])
    · intro before after heq
      have hlength := congrArg List.length heq
      have hval : (answersTo accepts (n + 1))[before.length]? = some false := by simp [heq]
      have hat : accepts before.length = false := by
        have hlt : before.length < n + 1 := by
          simp only [answersTo_length, List.length_append, List.length_cons] at hlength
          omega
        simpa [answersTo, hlt] using hval
      by_contra hne
      have hpos := List.length_pos_iff.mpr hne
      simp only [answersTo_length, List.length_append, List.length_cons] at hlength
      exact absurd (h.2 before.length (by omega)) (by simp [hat])

/-! ## Up to the first failure -/

/-- No call has failed yet: `n` pieces are sent, and `pos` bytes are taken over. -/
structure Underway (accepts : Nat → Bool) (D L n pos : Nat) (f : Fragmenter (List Bool)) : Prop where
  positions : f.At D L n pos
  answers : f.sink = answersTo accepts (2 * n + 1)
  accepted : ∀ k < 2 * n + 1, accepts k = true

/-- The header of the piece behind the first `n` was refused; the piece is still in the buffer. -/
structure HeaderFailed (accepts : Nat → Bool) (n : Nat) (f : Fragmenter (List Bool)) : Prop where
  due : f.thisFragmentLength ≤ f.buffer.length
  answers : f.sink = answersTo accepts (2 * n + 2)
  failed : FirstFails accepts (2 * n + 1)

/-- The last call for the first `n` pieces was refused. -/
structure PayloadFailed (accepts : Nat → Bool) (D L n pos : Nat) (f : Fragmenter (List Bool)) : Prop where
  positions : f.At D L n pos
  answers : f.sink = answersTo accepts (2 * n + 1)
  failed : FirstFails accepts (2 * n)

/-- Where a write that is taken over from position `pos` to position `stop` leaves the fragmenter. -/
inductive Outcome (accepts : Nat → Bool) (D L n pos stop : Nat) (f : Fragmenter (List Bool)) : Prop
  | underway {n'} : n ≤ n' → Underway accepts D L n' stop f → Outcome accepts D L n pos stop f
  | header {j} : n ≤ j → j * D < L → pos < pieceEnd D L (j + 1) → pieceEnd D L (j + 1) ≤ stop →
      HeaderFailed accepts j f → Outcome accepts D L n pos stop f
  | payload {j} : n ≤ j → j * D < L → pos < pieceEnd D L (j + 1) → pieceEnd D L (j + 1) ≤ stop →
      PayloadFailed accepts D L (j + 1) (pieceEnd D L (j + 1)) f → Outcome accepts D L n pos stop f

theorem Outcome.mono {accepts : Nat → Bool} {D L n n' pos pos' stop : Nat} {f : Fragmenter (List Bool)}
    (h : Outcome accepts D L n' pos' stop f) (hn : n ≤ n') (hpos : pos ≤ pos') :
    Outcome accepts D L n pos stop f := by
  cases h with
  | underway hle hunder => exact .underway (hn.trans hle) hunder
  | header hle hj hlo hhi hfailed => exact .header (hn.trans hle) hj (by omega) hhi hfailed
  | payload hle hj hlo hhi hfailed => exact .payload (hn.trans hle) hj (by omega) hhi hfailed

section Loop
variable {accepts : Nat → Bool} {D L n pos : Nat} {f f' : Fragmenter (List Bool)}

theorem FirstFails.of_accepted {i : Nat} (haccepted : ∀ k < i, accepts k = true)
    (hfail : accepts i = false) : FirstFails accepts i := ⟨hfail, haccepted⟩

theorem accepted_succ {i : Nat} (haccepted : ∀ k < i, accepts k = true) (hi : accepts i = true) :
    ∀ k < i + 1, accepts k = true := by
  intro k hk
  rcases Nat.lt_succ_iff_lt_or_eq.mp hk with hlt | rfl
  · exact haccepted k hlt
  · exact hi

/-- The macro on a full buffer makes two calls, the second only if the first is accepted. -/
theorem macro_due (hdue : f.thisFragmentLength ≤ f.buffer.length) {k : Nat}
    (hanswers : f.sink = answersTo accepts k) :
    f.transmitFragmentIfBufferFull (answering accepts) D L =
      if accepts k then (accepts (k + 1), f.emptied D L (answersTo accepts (k + 2)))
      else (false, f.refused (answersTo accepts (k + 1))) := by
  rw [Fragmenter.transmitFragmentIfBufferFull_due (answering accepts) D L hdue, hanswers,
    answering_answersTo]
  simp only [answering_answersTo]

/-- **The loop up to the first failure.** -/
theorem Underway.copyLoop {start fuel offset : Nat} {bytes : Bytes} {ret : Bool}
    (h : Underway accepts D L n (start + offset) f) (hoff : offset ≤ bytes.length)
    (hend : start + bytes.length ≤ L)
    (hrun : f.copyLoop (answering accepts) D L bytes fuel offset = .ok (ret, f')) :
    Outcome accepts D L n (start + offset) (start + bytes.length) f' := by
  induction fuel generalizing n offset f with
  | zero => cases hrun
  | succ fuel ih =>
      rcases Fragmenter.copyLoop_cases hrun with ⟨hstop, -, rfl⟩ | ⟨hlt, hin, hnext⟩
      · obtain rfl : offset = bytes.length := by omega
        exact .underway le_rfl h
      · have hpos : start + offset < L := by omega
        have hroom := (h.positions.before_end hpos).2
        have hconsume := h.positions.consumeSize hpos bytes.length
        by_cases hopen : (f.copied bytes offset).buffer.length < f.thisFragmentLength
        · -- the chunk does not fill the buffer
          have hcopied := h.positions.copied_open hin hopen
          rw [Fragmenter.transmitFragmentIfBufferFull_open (answering accepts) D L hopen] at hnext
          rcases hnext with hfalse | ⟨fuel', f₁, hfuel, hchecked, hloop⟩
          · cases hfalse
          · cases hchecked
            cases hfuel
            rw [Nat.add_assoc] at hcopied
            exact (ih ⟨hcopied, h.answers, h.accepted⟩ hin hloop).mono le_rfl (by omega)
        · -- the chunk fills it, and two calls are made for the piece
          obtain ⟨hpiece, hn, hempty⟩ := h.positions.copied_due hpos hin (not_lt.mp hopen)
          rw [macro_due (f := f.copied bytes offset) (not_lt.mp hopen) h.answers] at hnext
          cases hheader : accepts (2 * n + 1) with
          | false =>
              have hfailed := FirstFails.of_accepted h.accepted hheader
              rcases hnext with hfalse | ⟨fuel', f₁, hfuel, hchecked, hloop⟩
              · obtain rfl : (f.copied bytes offset).refused (answersTo accepts (2 * n + 2)) = f' := by
                  simpa [hheader] using hfalse
                exact .header le_rfl hn (by omega) (by omega) ⟨not_lt.mp hopen, rfl, hfailed⟩
              · simp [hheader] at hchecked
          | true =>
              have haccepted := accepted_succ h.accepted hheader
              cases hpayload : accepts (2 * n + 2) with
              | false =>
                  have hfailed := FirstFails.of_accepted haccepted hpayload
                  rcases hnext with hfalse | ⟨fuel', f₁, hfuel, hchecked, hloop⟩
                  · obtain rfl : (f.copied bytes offset).emptied D L (answersTo accepts (2 * n + 3)) =
                        f' := by simpa [hheader, hpayload] using hfalse
                    exact .payload le_rfl hn (by omega) (by omega) ⟨hpiece ▸ hempty _, rfl, hfailed⟩
                  · simp [hheader, hpayload] at hchecked
              | true =>
                  rcases hnext with hfalse | ⟨fuel', f₁, hfuel, hchecked, hloop⟩
                  · simp [hheader, hpayload] at hfalse
                  · cases hfuel
                    obtain rfl : (f.copied bytes offset).emptied D L (answersTo accepts (2 * n + 3)) =
                        f₁ := by simpa [hheader, hpayload] using hchecked
                    have hsent := hempty (answersTo accepts (2 * n + 3))
                    rw [Nat.add_assoc] at hsent
                    have houtcome := ih ⟨hsent, rfl, accepted_succ haccepted hpayload⟩ hin hloop
                    exact houtcome.mono (by omega) (by omega)

theorem Underway.serializer {fuel : Nat} {bytes : Bytes} {ret : Bool}
    (h : Underway accepts D L n pos f) (hlt : pos < L) (hend : pos + bytes.length ≤ L)
    (hrun : Fragmenter.serializer (answering accepts) D L fuel f bytes = .ok (ret, f')) :
    Outcome accepts D L n pos (pos + bytes.length) f' := by
  have hopen := Fragmenter.transmitFragmentIfBufferFull_open (answering accepts) D L
    (h.positions.before_end hlt).2
  rcases Fragmenter.serializer_cases hrun with hchecked | ⟨f₁, hchecked, hloop⟩
  · rw [hopen] at hchecked
    cases hchecked
  · rw [hopen] at hchecked
    cases hchecked
    have hzero : Underway accepts D L n (pos + 0) f := h
    exact hzero.copyLoop (Nat.zero_le _) hend hloop

/-! ## After the first failure -/

/-- **No more calls.** The writes make no call exactly when they leave room in the buffer, or when there
    are none. -/
theorem calls_quiet_iff {fuel k : Nat} {ws : List Bytes} (h : f.sink = answersTo accepts k)
    (hrun : Callback.calls (Fragmenter.serializer (answering accepts) D L fuel) f ws = .ok f') :
    ∃ k', k ≤ k' ∧ f'.sink = answersTo accepts k' ∧
      (k' = k ↔ ws = [] ∨ f.buffer.length + ws.flatten.length < f.thisFragmentLength) := by
  have hfirst (header : DTXMessageHeader) :
      ∃ k', k < k' ∧ (answering accepts f.sink header.encode).2 = answersTo accepts k' := by
    rw [h, answering_answersTo]
    exact ⟨k + 1, by omega, rfl⟩
  have hkeep (answers : List Bool) (bytes : Bytes) :
      (∃ k', k < k' ∧ answers = answersTo accepts k') →
        ∃ k', k < k' ∧ (answering accepts answers bytes).2 = answersTo accepts k' := by
    rintro ⟨k', hlt, rfl⟩
    rw [answering_answersTo]
    exact ⟨k' + 1, by omega, rfl⟩
  rcases Fragmenter.calls_quiet_or_called (fun answers => ∃ k', k < k' ∧ answers = answersTo accepts k')
    hfirst hkeep hrun with ⟨hquiet, hsame⟩ | ⟨hloud, k', hlt, hsink⟩
  · exact ⟨k, le_rfl, hsame.trans h, by simpa using hquiet⟩
  · exact ⟨k', hlt.le, hsink, fun heq => by omega, fun hquiet => absurd hquiet hloud⟩

/-! ## The whole message -/

theorem restAfter_cons_of_le {e : Nat} {w : Bytes} (ws : List Bytes) (h : e ≤ w.length) :
    restAfter e (w :: ws) = ws := by
  rw [restAfter, if_pos h]

theorem restAfter_cons_of_lt {e : Nat} {w : Bytes} (ws : List Bytes) (h : w.length < e) :
    restAfter e (w :: ws) = restAfter (e - w.length) ws := by
  rw [restAfter, if_neg (not_le.mpr h)]

/-- A write in which nothing fails changes nothing. -/
theorem Underway.failsLastFrom_cons {w : Bytes} (ws : List Bytes)
    (h : Underway accepts D L n (pos + w.length) f) :
    FailsLastFrom accepts D L pos (w :: ws) ↔ FailsLastFrom accepts D L (pos + w.length) ws := by
  have hrest {j : Nat} (hj : pos + w.length < pieceEnd D L j) :
      restAfter (pieceEnd D L j - pos) (w :: ws) = restAfter (pieceEnd D L j - (pos + w.length)) ws := by
    rw [restAfter_cons_of_lt ws (by omega), Nat.sub_sub]
  unfold FailsLastFrom
  constructor
  · rintro ⟨j, hpos, hj, hlo, hhi, hfail⟩
    by_cases hhere : pieceEnd D L j ≤ pos + w.length
    · -- the calls for the pieces that have ended were accepted
      have hle := h.positions.le_of_pieceEnd_le hj hhere
      rcases hfail with ⟨hfail, -⟩ | ⟨hfail, -⟩
      · exact absurd (h.accepted (2 * j - 1) (by omega)) (by simp [hfail.1])
      · exact absurd (h.accepted (2 * j) (by omega)) (by simp [hfail.1])
    · rw [List.flatten_cons, List.length_append] at hhi
      rw [hrest (not_le.mp hhere)] at hfail
      exact ⟨j, hpos, hj, not_le.mp hhere, by omega, hfail⟩
  · rintro ⟨j, hpos, hj, hlo, hhi, hfail⟩
    refine ⟨j, hpos, hj, by omega, ?_, ?_⟩
    · rw [List.flatten_cons, List.length_append]
      omega
    · rw [hrest hlo]
      exact hfail

/-- What the condition comes to when the header of a piece that ends in the write is refused. -/
theorem failsLastFrom_of_header {j : Nat} {w : Bytes} (ws : List Bytes) (hj : j * D < L)
    (hlo : pos < pieceEnd D L (j + 1)) (hhi : pieceEnd D L (j + 1) ≤ pos + w.length)
    (hfail : FirstFails accepts (2 * j + 1)) :
    FailsLastFrom accepts D L pos (w :: ws) ↔ ws = [] := by
  have hrest : restAfter (pieceEnd D L (j + 1) - pos) (w :: ws) = ws :=
    restAfter_cons_of_le ws (by omega)
  constructor
  · rintro ⟨i, hpos, -, -, -, ⟨hi, hnil⟩ | ⟨hi, -⟩⟩
    · obtain rfl : i = j + 1 := by
        have := hfail.unique hi
        omega
      rwa [hrest] at hnil
    · have := hfail.unique hi
      omega
  · rintro rfl
    refine ⟨j + 1, by omega, by rwa [Nat.add_sub_cancel], hlo, by simpa using hhi, .inl ⟨hfail, hrest⟩⟩

/-- What the condition comes to when the payload of a piece that ends in the write is refused. -/
theorem failsLastFrom_of_payload {j : Nat} {w : Bytes} (ws : List Bytes) (hj : j * D < L)
    (hlo : pos < pieceEnd D L (j + 1)) (hhi : pieceEnd D L (j + 1) ≤ pos + w.length)
    (hfail : FirstFails accepts (2 * (j + 1))) :
    FailsLastFrom accepts D L pos (w :: ws) ↔
      ws = [] ∨ ws.flatten.length < min D (L - pieceEnd D L (j + 1)) := by
  have hrest : restAfter (pieceEnd D L (j + 1) - pos) (w :: ws) = ws :=
    restAfter_cons_of_le ws (by omega)
  constructor
  · rintro ⟨i, hpos, -, -, -, ⟨hi, -⟩ | ⟨hi, hquiet⟩⟩
    · have := hfail.unique hi
      omega
    · obtain rfl : i = j + 1 := by
        have := hfail.unique hi
        omega
      rwa [hrest] at hquiet
  · intro hquiet
    refine ⟨j + 1, by omega, by rwa [Nat.add_sub_cancel], hlo, ?_, .inr ⟨hfail, by rwa [hrest]⟩⟩
    rw [List.flatten_cons, List.length_append]
    omega

/-- After a failure the last call is the first to fail when no other call is made. -/
theorem firstFails_last_iff {i k : Nat} (hi : FirstFails accepts i) (hk : i + 1 ≤ k) :
    FirstFails accepts (k - 1) ↔ k = i + 1 := by
  constructor
  · intro h
    have := h.unique hi
    omega
  · rintro rfl
    exact hi

/-- **The writes of a message, from a state without a failure.** -/
theorem Underway.calls {fuel : Nat} {ws : List Bytes} (h : Underway accepts D L n pos f)
    (hstart : ∀ before w after, ws = before ++ w :: after → pos + before.flatten.length < L)
    (hend : pos + ws.flatten.length ≤ L)
    (hrun : Callback.calls (Fragmenter.serializer (answering accepts) D L fuel) f ws = .ok f') :
    ∃ k, 0 < k ∧ f'.sink = answersTo accepts k ∧
      (FirstFails accepts (k - 1) ↔ FailsLastFrom accepts D L pos ws) := by
  induction ws generalizing n pos f with
  | nil =>
      cases hrun
      refine ⟨2 * n + 1, by omega, h.answers, ?_⟩
      constructor
      · intro hfail
        have hlast : accepts (2 * n) = false := hfail.1
        exact absurd (h.accepted (2 * n) (by omega)) (by simp [hlast])
      · rintro ⟨j, -, -, hlo, hhi, -⟩
        simp only [List.flatten_nil, List.length_nil] at hhi
        omega
  | cons w ws ih =>
      obtain ⟨f₁, hcall, hrest⟩ := Callback.bind_eq_ok.mp hrun
      obtain ⟨ret, hser⟩ := Callback.call_eq_ok.mp hcall
      have hlt : pos < L := by simpa using hstart [] w ws rfl
      rw [List.flatten_cons, List.length_append] at hend
      have hnext : ∀ before v after, ws = before ++ v :: after →
          pos + w.length + before.flatten.length < L := by
        intro before v after heq
        have := hstart (w :: before) v after (by rw [heq, List.cons_append])
        rw [List.flatten_cons, List.length_append] at this
        omega
      cases h.serializer hlt (by omega) hser with
      | underway _ hunder =>
          obtain ⟨k, hk, hsink, hiff⟩ := ih hunder hnext (by omega) hrest
          exact ⟨k, hk, hsink, hiff.trans (hunder.failsLastFrom_cons ws).symm⟩
      | header _ hj hlo hhi hfailed =>
          obtain ⟨k, hk, hsink, hiff⟩ := calls_quiet_iff hfailed.answers hrest
          refine ⟨k, by omega, hsink, ?_⟩
          have hdue := hfailed.due
          rw [failsLastFrom_of_header ws hj hlo hhi hfailed.failed,
            firstFails_last_iff hfailed.failed (by omega), hiff]
          constructor
          · rintro (hnil | hroom)
            · exact hnil
            · omega
          · exact .inl
      | payload _ hj hlo hhi hfailed =>
          obtain ⟨k, hk, hsink, hiff⟩ := calls_quiet_iff hfailed.answers hrest
          refine ⟨k, by omega, hsink, ?_⟩
          -- the buffer is empty, for the position is the end of a piece
          have hoffset := hfailed.positions.offset
          have hempty : f₁.buffer.length = 0 := by
            have := hfailed.positions.position
            omega
          have hroom := hfailed.positions.next
          rw [failsLastFrom_of_payload ws hj hlo hhi hfailed.failed,
            firstFails_last_iff hfailed.failed (by omega), hiff, hempty, hroom, hoffset, Nat.zero_add]

/-- **The writes of a message**, whatever the call for the header in front was answered. -/
theorem calls_failsLast {fuel : Nat} {ws : List Bytes} (h : f.At D L 0 0)
    (hanswers : f.sink = answersTo accepts 1) (hD : 0 < D) (hle : D ≤ L)
    (hstart : ∀ before w after, ws = before ++ w :: after → before.flatten.length < L)
    (hend : ws.flatten.length ≤ L)
    (hrun : Callback.calls (Fragmenter.serializer (answering accepts) D L fuel) f ws = .ok f') :
    ∃ k, 0 < k ∧ f'.sink = answersTo accepts k ∧
      (FirstFails accepts (k - 1) ↔ FailsLast accepts D L ws) := by
  cases hfirst : accepts 0 with
  | true =>
      have hunder : Underway accepts D L 0 0 f := ⟨h, hanswers, fun k hk => by
        obtain rfl : k = 0 := by omega
        exact hfirst⟩
      obtain ⟨k, hk, hsink, hiff⟩ := hunder.calls (by simpa using hstart) (by omega) hrun
      refine ⟨k, hk, hsink, hiff.trans ⟨.inr, ?_⟩⟩
      rintro (⟨hfail, -⟩ | hlast)
      · exact absurd hfirst (by simp [hfail.1])
      · exact hlast
  | false =>
      have hfail : FirstFails accepts 0 := ⟨hfirst, fun k hk => absurd hk (Nat.not_lt_zero k)⟩
      obtain ⟨k, hk, hsink, hiff⟩ := calls_quiet_iff hanswers hrun
      have hposition := h.position
      have hnext := h.next
      refine ⟨k, hk, hsink, ?_⟩
      rw [firstFails_last_iff hfail hk, hiff]
      constructor
      · rintro (rfl | hroom)
        · exact .inl ⟨hfail, hD⟩
        · exact .inl ⟨hfail, by omega⟩
      · rintro (⟨-, hshort⟩ | ⟨j, hpos, -, -, -, ⟨hj, -⟩ | ⟨hj, -⟩⟩)
        · right
          omega
        · have := hfail.unique hj
          omega
        · have := hfail.unique hj
          omega

end Loop

/-! ## `TransmitMessage` -/

theorem foldl_answering (accepts : Nat → Bool) (n : Nat) (ws : List Bytes) :
    ws.foldl (fun answers w => (answering accepts answers w).2) (answersTo accepts n) =
      answersTo accepts (n + ws.length) := by
  induction ws generalizing n with
  | nil => rfl
  | cons w ws ih =>
      rw [List.foldl_cons, answering_answersTo, ih, List.length_cons, Nat.add_assoc, Nat.add_comm 1]

section Message
variable {KAValue : Type} {archivedData : KAValue → Bytes} {suggestedFragmentSize : UInt32}
  {message message' : DTXMessage KAValue} {routingInfo : DTXMessageRoutingInfo} {accepts : Nat → Bool}
  {fuel : Nat} {ret : Bool} {answers : List Bool}

/-- In one fragment there is a call for the header and one for each write, and the flag is `true`. -/
theorem transmitMessage_single_answers
    (hone : fragmentsForLength suggestedFragmentSize (message.serializedLength archivedData).1 = 1)
    (hrun : transmitMessage archivedData fuel suggestedFragmentSize message routingInfo
      (answering accepts) [] = .ok (ret, message', answers)) :
    ret = true ∧ answers = answersTo accepts ((message.writes archivedData).length + 1) := by
  rw [transmitMessage_one fuel routingInfo (answering accepts) [] hone] at hrun
  cases hrun
  exact ⟨rfl, (foldl_answering accepts 0 _).trans (by rw [List.length_cons, Nat.zero_add])⟩

/-- In several fragments the flag is `false`. -/
theorem transmitMessage_fragmented_answers
    (hne : fragmentsForLength suggestedFragmentSize (message.serializedLength archivedData).1 ≠ 1)
    (hrun : transmitMessage archivedData fuel suggestedFragmentSize message routingInfo
      (answering accepts) [] = .ok (ret, message', answers)) :
    ret = false ∧ ∃ k, 0 < k ∧ answers = answersTo accepts k ∧
      (FirstFails accepts (k - 1) ↔ FailsLast accepts
        (suggestedFragmentSize - kDTXMessageHeaderSize).toNat (message.serializedLength archivedData).1
        (message.writes archivedData)) := by
  have hpos : 0 < (message.serializedLength archivedData).1 :=
    lt_of_lt_of_le (by decide) (message.le_serializedLength archivedData)
  obtain ⟨hD, hlt⟩ := lt_of_fragmentsForLength_ne_one hpos hne
  have hheader (bytes : Bytes) : answering accepts [] bytes = (accepts 0, answersTo accepts 1) :=
    answering_answersTo accepts 0 bytes
  rw [transmitMessage_several fuel routingInfo (answering accepts) [] hne, hheader] at hrun
  obtain ⟨f, hcalls, hret⟩ := Callback.bind_eq_ok.mp hrun
  obtain ⟨k, hk, hsink, hiff⟩ := calls_failsLast (Fragmenter.At.init _ _ hD hlt) rfl hD hlt.le
    (fun before w after heq => DTXMessage.write_starts_inside archivedData heq)
    (message.serialized_length_le archivedData) hcalls
  cases hret
  exact ⟨rfl, k, hk, hsink, hiff⟩

/-- **What `TransmitMessage` reports.** In one fragment it reports the truth, and stops at a failure, only
    when nothing fails; in several fragments only when the last call fails and no other. -/
theorem reportsTruth_iff
    (hrun : transmitMessage archivedData fuel suggestedFragmentSize message routingInfo
      (answering accepts) [] = .ok (ret, message', answers)) :
    ReportsTruth ret answers ↔
      if fragmentsForLength suggestedFragmentSize (message.serializedLength archivedData).1 = 1 then
        ∀ i ≤ (message.writes archivedData).length, accepts i = true
      else
        FailsLast accepts (suggestedFragmentSize - kDTXMessageHeaderSize).toNat
          (message.serializedLength archivedData).1 (message.writes archivedData) := by
  by_cases hone : fragmentsForLength suggestedFragmentSize (message.serializedLength archivedData).1 = 1
  · obtain ⟨rfl, rfl⟩ := transmitMessage_single_answers hone hrun
    rw [if_pos hone, reportsTruth_true_iff]
    simp only [Nat.lt_succ_iff]
  · obtain ⟨rfl, k, hk, rfl, hiff⟩ := transmitMessage_fragmented_answers hone hrun
    obtain ⟨k, rfl⟩ : ∃ j, k = j + 1 := ⟨k - 1, by omega⟩
    rw [if_neg hone, reportsTruth_false_iff, ← hiff]
    rfl

end Message

/-- A message without arguments and payload: one write for each field of its header. -/
def bareMessage : DTXMessage Unit where
  messageType := kInterruptionMessage

/-- Two pieces of eight bytes, of which the transmitter refuses the last one's payload. -/
theorem reportsTruth_iff_lastPieceRefused :
    transmitMessage (fun _ : Unit => []) 2 40 bareMessage ⟨1, 0, 0, 0⟩ (answering fun i => decide (i ≠ 4)) [] =
      .ok (false, bareMessage, [true, true, true, true, false]) ∧
    ReportsTruth false [true, true, true, true, false] := by
  have hseveral : fragmentsForLength 40 (bareMessage.serializedLength fun _ => []).1 ≠ 1 := by decide +kernel
  have hrun : transmitMessage (fun _ : Unit => []) 2 40 bareMessage ⟨1, 0, 0, 0⟩
      (answering fun i => decide (i ≠ 4)) [] = .ok (false, bareMessage, [true, true, true, true, false]) := by
    rw [transmitMessage_several _ _ _ _ hseveral]
    rfl
  refine ⟨hrun, (reportsTruth_iff hrun).mpr ?_⟩
  rw [if_neg hseveral]
  exact .inr ⟨2, by decide, by decide, by decide, by decide, .inr ⟨⟨rfl, by decide⟩, .inl rfl⟩⟩

/-- A transmitter that refuses everything: four calls are made, and the flag is `true`. -/
theorem bareMessage_refused :
    transmitMessage (fun _ : Unit => []) 0 0 bareMessage ⟨1, 0, 0, 0⟩ (answering fun _ => false) [] =
      .ok (true, bareMessage, [false, false, false, false]) ∧
    ¬ ReportsTruth true [false, false, false, false] := by
  refine ⟨rfl, fun h => ?_⟩
  exact absurd (h.truth.mp rfl false (by simp)) (by simp)

end IDevice
