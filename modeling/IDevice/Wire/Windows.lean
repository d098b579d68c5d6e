import IDevice.Wire.Chunking

/-!
# `Wire.Windows` — does the parser stay inside its buffer?

An iteration of `ParseIncomingBytes` that has a complete header computes in 32 bits how many bytes the
message has, and compares that with what is in the buffer. A length from `2 ^ 32 - 32` on wraps to less
than a header, so the comparison is passed whatever has arrived. `callsOfLoop` lists the calls of
`ParseMessageWithHeader` that the iterations make, and `StaysInside` says that their windows lie inside
the parsing buffer.

`Meets` reads the same bytes with numbers that do not wrap. It knows of the partial messages only which
ones have begun, for that decides how much of a frame is consumed (`DTXMessageHeader.taken`). The parser
stays inside exactly when every header met so has a length that does not wrap, or all its bytes behind it.
-/

namespace IDevice

open Machine

/-- The header passes the two checks of the loop. -/
def DTXMessageHeader.Good (header : DTXMessageHeader) : Prop :=
  header.magic = kDTXMessageHeaderMagic ∧ header.messageHeaderSize = kDTXMessageHeaderSize

instance (header : DTXMessageHeader) : Decidable header.Good := by
  unfold DTXMessageHeader.Good
  infer_instance

/-! ## Which messages have begun -/

/-- The identifiers of the messages that have begun and are not complete. -/
abbrev Opened := UInt32 → Bool

def FragmentTable.opened (t : FragmentTable) : Opened := fun identifier => (t identifier).isSome

namespace DTXMessageHeader

/-- How many of the bytes behind the header are consumed with it: none behind a first fragment, and none
    behind a continuation whose message has not begun. -/
def taken (opened : Opened) (header : DTXMessageHeader) : Nat :=
  if header.fragmentCount = 1 then header.length.toNat
  else if header.fragmentIndex = 0 then 0
  else if opened header.identifier then header.length.toNat
  else 0

/-- The messages that have begun, after the fragment. -/
def openedAfter (opened : Opened) (header : DTXMessageHeader) : Opened :=
  if header.fragmentCount = 1 then opened
  else if header.fragmentIndex = 0 then Function.update opened header.identifier true
  else if header.fragmentIndex.toNat + 1 = header.fragmentCount.toNat then
    Function.update opened header.identifier false
  else opened

end DTXMessageHeader

namespace FragmentTable

variable (t : FragmentTable) (identifier : UInt32) (buffer : Bytes)

theorem opened_insert : (t.insert identifier buffer).opened = Function.update t.opened identifier true := by
  funext key
  rw [insert]
  by_cases hkey : key = identifier
  · subst hkey
    cases hfound : t key <;> simp [opened, hfound]
  · cases hfound : t identifier <;> simp [opened, hkey]

theorem opened_erase : (t.erase identifier).opened = Function.update t.opened identifier false := by
  funext key
  by_cases hkey : key = identifier <;> simp [opened, erase, hkey]

theorem opened_set (hfound : t.opened identifier = true) : (t.set identifier buffer).opened = t.opened := by
  funext key
  by_cases hkey : key = identifier
  · subst hkey
    rw [hfound]
    simp [opened, set]
  · simp [opened, set, hkey]

end FragmentTable

namespace DTXMessageParser

abbrev opened (p : DTXMessageParser) : Opened := p.fragmentedBuffersByIdentifier.opened

/-- **A fragment whose window is there** is consumed as `taken` says. -/
theorem parseMessageWithHeader_inside (p : DTXMessageParser) {header : DTXMessageHeader} {data : Bytes}
    (hinside : header.length.toNat ≤ data.length) :
    ∃ p', parseMessageWithHeader p header data header.length.toNat =
        some (header.taken p.opened, p') ∧
      p'.parsingBuffer = p.parsingBuffer ∧ p'.opened = header.openedAfter p.opened := by
  unfold parseMessageWithHeader DTXMessageHeader.taken DTXMessageHeader.openedAfter
  rw [if_neg (Nat.not_lt.mpr hinside)]
  by_cases hcount : header.fragmentCount = 1
  · simp [hcount]
  by_cases hindex : header.fragmentIndex = 0
  · simp only [hcount, hindex, if_true, if_false]
    exact ⟨_, rfl, rfl, FragmentTable.opened_insert _ _ _⟩
  simp only [hcount, hindex, if_false]
  cases hfound : p.fragmentedBuffersByIdentifier header.identifier with
  | none =>
      -- a continuation whose message has not begun
      have hopened : p.opened header.identifier = false := by simp [FragmentTable.opened, hfound]
      refine ⟨p, by simp [hopened], rfl, ?_⟩
      split
      · rw [← hopened, Function.update_eq_self]
      · rfl
  | some fragmentedBuffer =>
      have hopened : p.opened header.identifier = true := by simp [FragmentTable.opened, hfound]
      by_cases hlast : header.fragmentIndex.toNat + 1 = header.fragmentCount.toNat
      · simp only [hlast, hopened, if_true, if_neg (Nat.not_lt.mpr hinside)]
        exact ⟨_, rfl, rfl, FragmentTable.opened_erase _ _⟩
      · simp only [hlast, hopened, if_true, if_false, if_neg (Nat.not_lt.mpr hinside)]
        exact ⟨_, rfl, rfl, FragmentTable.opened_set _ _ _ hopened⟩

/-! ## The calls of the loop -/

/-- A call of `ParseMessageWithHeader`: `consumed_size` when it is made, and its header. -/
structure ParseCall where
  offset : Nat
  header : DTXMessageHeader
deriving DecidableEq

/-- The header with which the iteration at `consumed_size` calls `ParseMessageWithHeader`, if it comes to
    the call. -/
def calledHeader (p : DTXMessageParser) (consumedSize : Nat) : Option DTXMessageHeader :=
  let bufferSize := p.parsingBuffer.length
  let header := DTXMessageHeader.decode (p.parsingBuffer.drop consumedSize)
  if bufferSize < consumedSize + kDTXMessageHeaderSize.toNat then none
  else if header.magic ≠ kDTXMessageHeaderMagic then none
  else if header.messageHeaderSize ≠ kDTXMessageHeaderSize then none
  else if bufferSize < consumedSize + (header.messageHeaderSize + header.length).toNat then none
  else some header

/-- The call itself. -/
def parseCalled (p : DTXMessageParser) (consumedSize : Nat) (header : DTXMessageHeader) :
    Option (Nat × DTXMessageParser) :=
  parseMessageWithHeader p header
    ((p.parsingBuffer.drop consumedSize).drop kDTXMessageHeaderSize.toNat) header.length.toNat

/-- The calls that the loop of `ParseIncomingBytes` makes. -/
def callsOfLoop : Nat → DTXMessageParser → Nat → List ParseCall
  | 0, _, _ => []
  | fuel + 1, p, consumedSize =>
    match calledHeader p consumedSize with
    | none => []
    | some header =>
      ⟨consumedSize, header⟩ ::
        match parseCalled p consumedSize header with
        | none => []
        | some (consumedLength, p) =>
          callsOfLoop fuel p (consumedSize + (header.messageHeaderSize.toNat + consumedLength))

section Loop
variable {p p' : DTXMessageParser} {header : DTXMessageHeader} {consumedSize n : Nat}

/-- The iteration comes to the call when the header is there and good, and the sum of 32 bits is not more
    than what has arrived. -/
theorem calledHeader_eq_some : calledHeader p consumedSize = some header ↔
    consumedSize + 32 ≤ p.parsingBuffer.length ∧
      DTXMessageHeader.decode (p.parsingBuffer.drop consumedSize) = header ∧ header.Good ∧
      consumedSize + (32 + header.length.toNat) % 2 ^ 32 ≤ p.parsingBuffer.length := by
  have hsum (h : header.messageHeaderSize = kDTXMessageHeaderSize) :
      (header.messageHeaderSize + header.length).toNat = (32 + header.length.toNat) % 2 ^ 32 := by
    rw [h, UInt32.toNat_add]
    rfl
  have h32 : kDTXMessageHeaderSize.toNat = 32 := rfl
  simp only [calledHeader, h32]
  constructor
  · intro h
    split_ifs at h with hA hmagic hsize hB
    obtain rfl := Option.some.inj h
    rw [hsum (not_not.mp hsize)] at hB
    exact ⟨by omega, rfl, ⟨not_not.mp hmagic, not_not.mp hsize⟩, by omega⟩
  · rintro ⟨hA, rfl, ⟨hmagic, hsize⟩, hB⟩
    rw [if_neg (by omega), if_neg (not_not.mpr hmagic), if_neg (not_not.mpr hsize), hsum hsize,
      if_neg (by omega)]

/-- Without a call the loop ends where it is. -/
theorem parseLoop_of_not_called (fuel : Nat) (h : calledHeader p consumedSize = none) :
    parseLoop (fuel + 1) p consumedSize = .break p consumedSize ∨
      parseLoop (fuel + 1) p consumedSize = .returnFalse p := by
  simp only [calledHeader] at h
  simp only [parseLoop]
  split_ifs at h with hA hmagic hsize hB
  · exact .inl (if_pos hA)
  · rw [if_neg hA, if_pos hmagic]
    exact .inr rfl
  · rw [if_neg hA, if_neg hmagic, if_pos hsize]
    exact .inr rfl
  · rw [if_neg hA, if_neg hmagic, if_neg hsize, if_pos hB]
    exact .inl rfl

/-- After the call the loop goes on behind what was consumed. -/
theorem parseLoop_called (fuel : Nat) (h : calledHeader p consumedSize = some header)
    (hparse : parseCalled p consumedSize header = some (n, p')) :
    parseLoop (fuel + 1) p consumedSize = parseLoop fuel p' (consumedSize + (32 + n)) := by
  obtain ⟨hA, rfl, hgood, -⟩ := calledHeader_eq_some.mp h
  simp only [calledHeader] at h
  simp only [parseCalled] at hparse
  simp only [parseLoop, hparse]
  split_ifs at h with hA' hmagic hsize hB
  rw [if_neg hA', if_neg hmagic, if_neg hsize, if_neg hB, hgood.2]
  rfl

theorem callsOfLoop_of_not_called (fuel : Nat) (h : calledHeader p consumedSize = none) :
    callsOfLoop fuel p consumedSize = [] := by
  cases fuel with
  | zero => rfl
  | succ fuel => rw [callsOfLoop, h]

theorem mem_callsOfLoop (fuel : Nat) (h : calledHeader p consumedSize = some header) :
    ⟨consumedSize, header⟩ ∈ callsOfLoop (fuel + 1) p consumedSize := by
  rw [callsOfLoop, h]
  exact List.mem_cons_self

theorem callsOfLoop_called (fuel : Nat) (h : calledHeader p consumedSize = some header)
    (hparse : parseCalled p consumedSize header = some (n, p')) :
    callsOfLoop (fuel + 1) p consumedSize =
      ⟨consumedSize, header⟩ :: callsOfLoop fuel p' (consumedSize + (32 + n)) := by
  have hsize : header.messageHeaderSize.toNat = 32 := by
    rw [(calledHeader_eq_some.mp h).2.2.1.2]
    rfl
  rw [callsOfLoop, h]
  simp only [hparse, hsize]

/-- The call of an iteration whose window is there. -/
theorem parseCalled_inside
    (hinside : consumedSize + 32 + header.length.toNat ≤ p.parsingBuffer.length) :
    ∃ p', parseCalled p consumedSize header = some (header.taken p.opened, p') ∧
      p'.parsingBuffer = p.parsingBuffer ∧ p'.opened = header.openedAfter p.opened := by
  refine parseMessageWithHeader_inside p ?_
  have h32 : kDTXMessageHeaderSize.toNat = 32 := rfl
  rw [h32, List.drop_drop, List.length_drop]
  omega

end Loop

/-- The parser with the chunk in its parsing buffer. -/
def receive (p : DTXMessageParser) (chunk : Bytes) : DTXMessageParser :=
  { p with parsingBuffer := p.parsingBuffer ++ chunk }

/-- The calls of `ParseMessageWithHeader` during one call of `ParseIncomingBytes`. -/
def parseCalls (p : DTXMessageParser) (chunk : Bytes) : List ParseCall :=
  callsOfLoop ((p.receive chunk).parsingBuffer.length + 1) (p.receive chunk) 0

/-- How the loop ends in that call. -/
def loopExit (p : DTXMessageParser) (chunk : Bytes) : LoopExit :=
  parseLoop ((p.receive chunk).parsingBuffer.length + 1) (p.receive chunk) 0

end DTXMessageParser

/-! ## The bounds of a call -/

/-- The assertion at the end of `ParseIncomingBytes`, where the call comes to it. -/
def DTXMessageParser.LoopExit.Asserted (bufferSize : Nat) : LoopExit → Prop
  | .break _ consumedSize => consumedSize ≤ bufferSize
  | .returnFalse _ => True
  | .overrun => False

/-- The window of `header->length` bytes behind the header lies inside the buffer. -/
def DTXMessageParser.ParseCall.Inside (bufferSize : Nat) (call : DTXMessageParser.ParseCall) : Prop :=
  call.offset + 32 + call.header.length.toNat ≤ bufferSize

/-- A call of `ParseIncomingBytes` with `chunk` stays inside the parsing buffer. -/
structure StaysInside (p : DTXMessageParser) (chunk : Bytes) : Prop where
  windows : ∀ call ∈ p.parseCalls chunk, call.Inside (p.receive chunk).parsingBuffer.length
  asserted : (p.loopExit chunk).Asserted (p.receive chunk).parsingBuffer.length

/-- `Meets opened b header left`: a reader of `b` with numbers that do not wrap comes to `header`, with
    `left` bytes behind it. -/
inductive Meets : Opened → Bytes → DTXMessageHeader → Nat → Prop
  | here {opened : Opened} {b : Bytes} (hcomplete : 32 ≤ b.length)
      (hgood : (DTXMessageHeader.decode b).Good) :
      Meets opened b (DTXMessageHeader.decode b) (b.length - 32)
  | later {opened : Opened} {b : Bytes} {first header : DTXMessageHeader} {left : Nat}
      (hfirst : DTXMessageHeader.decode b = first) (hgood : first.Good)
      (hcomplete : 32 + first.length.toNat ≤ b.length)
      (hrest : Meets (first.openedAfter opened) (b.drop (32 + first.taken opened)) header left) :
      Meets opened b header left

/-- No header that is met has a length that wraps, unless all its bytes have arrived. -/
def LengthsFit (opened : Opened) (b : Bytes) : Prop :=
  ∀ header left, Meets opened b header left →
    32 + header.length.toNat < 2 ^ 32 ∨ header.length.toNat ≤ left

section Loop
open DTXMessageParser
variable {p : DTXMessageParser} {consumedSize : Nat}

/-- A header that is met behind another one is met from there. -/
theorem LengthsFit.later {opened : Opened} {b : Bytes} {header : DTXMessageHeader}
    (h : LengthsFit opened b) (hheader : DTXMessageHeader.decode b = header) (hgood : header.Good)
    (hcomplete : 32 + header.length.toNat ≤ b.length) :
    LengthsFit (header.openedAfter opened) (b.drop (32 + header.taken opened)) :=
  fun next left hmeets => h next left (.later hheader hgood hcomplete hmeets)

theorem DTXMessageHeader.taken_le (opened : Opened) (header : DTXMessageHeader) :
    header.taken opened ≤ header.length.toNat := by
  unfold DTXMessageHeader.taken
  split_ifs <;> omega

/-- **When the lengths fit**, every window lies inside the buffer, and so does what is consumed. -/
theorem inside_of_lengthsFit (fuel : Nat) (hle : consumedSize ≤ p.parsingBuffer.length)
    (hfit : LengthsFit p.opened (p.parsingBuffer.drop consumedSize)) :
    (∀ call ∈ callsOfLoop fuel p consumedSize, call.Inside p.parsingBuffer.length) ∧
      (parseLoop fuel p consumedSize).Asserted p.parsingBuffer.length := by
  induction fuel generalizing p consumedSize with
  | zero => exact ⟨fun call hcall => absurd hcall List.not_mem_nil, hle⟩
  | succ fuel ih =>
      cases hcalled : calledHeader p consumedSize with
      | none =>
          rw [callsOfLoop_of_not_called _ hcalled]
          refine ⟨fun call hcall => absurd hcall List.not_mem_nil, ?_⟩
          rcases parseLoop_of_not_called fuel hcalled with hexit | hexit <;> rw [hexit]
          · exact hle
          · trivial
      | some header =>
          obtain ⟨hA, hheader, hgood, hB⟩ := calledHeader_eq_some.mp hcalled
          have hlen : (p.parsingBuffer.drop consumedSize).length =
              p.parsingBuffer.length - consumedSize := List.length_drop
          have hinside : consumedSize + 32 + header.length.toNat ≤ p.parsingBuffer.length := by
            have hmeets : Meets p.opened (p.parsingBuffer.drop consumedSize)
                (DTXMessageHeader.decode (p.parsingBuffer.drop consumedSize)) _ :=
              .here (by omega) (by rwa [hheader])
            rw [hheader] at hmeets
            rcases hfit _ _ hmeets with hsmall | hthere
            · rw [Nat.mod_eq_of_lt hsmall] at hB
              omega
            · omega
          obtain ⟨p', hparse, hbuffer, hopened⟩ := parseCalled_inside hinside
          have htaken := header.taken_le p.opened
          have hfit' : LengthsFit p'.opened
              (p'.parsingBuffer.drop (consumedSize + (32 + header.taken p.opened))) := by
            rw [hbuffer, hopened, ← List.drop_drop]
            exact hfit.later hheader hgood (by omega)
          have hnext := ih (by rw [hbuffer]; omega) hfit'
          rw [hbuffer] at hnext
          rw [callsOfLoop_called fuel hcalled hparse, parseLoop_called fuel hcalled hparse]
          refine ⟨?_, hnext.2⟩
          intro call hcall
          rcases List.mem_cons.mp hcall with rfl | hcall
          · exact hinside
          · exact hnext.1 call hcall

/-- A loop whose windows lie inside the buffer comes to every header that is met. -/
theorem lengthFits_of_inside {opened : Opened} {b : Bytes} {header : DTXMessageHeader} {left fuel : Nat}
    (hmeets : Meets opened b header left) (hopened : p.opened = opened)
    (hb : p.parsingBuffer.drop consumedSize = b) (hle : consumedSize ≤ p.parsingBuffer.length)
    (hfuel : b.length < fuel)
    (hinside : ∀ call ∈ callsOfLoop fuel p consumedSize, call.Inside p.parsingBuffer.length) :
    32 + header.length.toNat < 2 ^ 32 ∨ header.length.toNat ≤ left := by
  obtain ⟨fuel, rfl⟩ : ∃ k, fuel = k + 1 := ⟨fuel - 1, by omega⟩
  have hlen : b.length = p.parsingBuffer.length - consumedSize := by rw [← hb, List.length_drop]
  induction hmeets generalizing p consumedSize fuel with
  | @here opened b hcomplete hgood =>
      by_cases hsmall : 32 + (DTXMessageHeader.decode b).length.toNat < 2 ^ 32
      · exact .inl hsmall
      · -- the sum wraps, so the call is made
        have hbound := (DTXMessageHeader.decode b).length.toNat_lt
        have hcalled : calledHeader p consumedSize = some (DTXMessageHeader.decode b) :=
          calledHeader_eq_some.mpr ⟨by omega, by rw [hb], hgood, by omega⟩
        have hwindow := hinside _ (mem_callsOfLoop fuel hcalled)
        unfold ParseCall.Inside at hwindow
        simp only at hwindow
        right
        omega
  | @later opened b first header left hfirst hgood hcomplete hrest ih =>
      have hcalled : calledHeader p consumedSize = some first := by
        refine calledHeader_eq_some.mpr ⟨by omega, by rw [hb, hfirst], hgood, ?_⟩
        have hmod := Nat.mod_le (32 + first.length.toNat) (2 ^ 32)
        omega
      have hwindow : consumedSize + 32 + first.length.toNat ≤ p.parsingBuffer.length := by omega
      obtain ⟨p', hparse, hbuffer, hopened'⟩ := parseCalled_inside hwindow
      have htaken := first.taken_le opened
      subst hopened
      have hdrop : p'.parsingBuffer.drop (consumedSize + (32 + first.taken p.opened)) =
          b.drop (32 + first.taken p.opened) := by
        rw [hbuffer, ← hb, List.drop_drop]
      obtain ⟨fuel, rfl⟩ : ∃ k, fuel = k + 1 := ⟨fuel - 1, by omega⟩
      refine ih hopened' hdrop (by rw [hbuffer]; omega) fuel ?_ ?_ ?_
      · rw [List.length_drop]
        omega
      · intro call hcall
        rw [hbuffer]
        refine hinside call ?_
        rw [callsOfLoop_called (fuel + 1) hcalled hparse]
        exact List.mem_cons_of_mem _ hcall
      · rw [List.length_drop, hbuffer]
        omega

end Loop

/-- **A call stays inside the buffer** exactly when the lengths it meets fit. -/
theorem staysInside_call_iff (p : DTXMessageParser) (chunk : Bytes) :
    StaysInside p chunk ↔ LengthsFit p.opened (p.parsingBuffer ++ chunk) := by
  have hbytes : (p.receive chunk).parsingBuffer.drop 0 = p.parsingBuffer ++ chunk := rfl
  constructor
  · intro h header left hmeets
    exact lengthFits_of_inside hmeets (p := p.receive chunk) rfl hbytes (Nat.zero_le _)
      (Nat.lt_succ_self _) h.windows
  · intro hfit
    obtain ⟨hwindows, hasserted⟩ := inside_of_lengthsFit (p := p.receive chunk)
      ((p.receive chunk).parsingBuffer.length + 1) (Nat.zero_le _) (by rwa [hbytes])
    exact ⟨hwindows, hasserted⟩

/-! ## Runs -/

/-- What `ParseIncomingBytes` does in a call of the run. -/
def CallStaysInside (r : ParserRun) : ParserCall → Prop
  | .parse chunk => StaysInside r.parser chunk
  | .pop => True

/-- The condition on what has been received and on the chunk. -/
def CallLengthsFit (r : ParserRun) : ParserCall → Prop
  | .parse chunk => LengthsFit r.parser.opened (r.parser.parsingBuffer ++ chunk)
  | .pop => True

/-- **No call of a run leaves the parsing buffer**, and every call meets its assertion, exactly when in
    every call the lengths of the headers it meets fit. -/
theorem staysInside_iff (calls : List ParserCall) :
    Follows ParserRun.step CallStaysInside {} calls ↔ Follows ParserRun.step CallLengthsFit {} calls := by
  refine follows_congr (fun _ => True) (fun r call _ => ?_) (fun _ _ _ _ _ _ => trivial) trivial
  cases call with
  | parse chunk => exact staysInside_call_iff r.parser chunk
  | pop => exact Iff.rfl

/-- A header that announces `2 ^ 32 - 1` bytes, of which none follows. -/
def wrappingHeader : DTXMessageHeader :=
  ⟨kDTXMessageHeaderMagic, kDTXMessageHeaderSize, 0, 1, 0xFFFFFFFF, 1, 0, 0, 0⟩

theorem not_staysInside_wrappingHeader :
    ¬ Follows ParserRun.step CallStaysInside {} [.parse wrappingHeader.encode] := by
  rintro ⟨hcall, -⟩
  have hheader : DTXMessageHeader.decode wrappingHeader.encode = wrappingHeader := by
    simpa using wrappingHeader.decode_encode []
  have hmeets : Meets FragmentTable.empty.opened wrappingHeader.encode wrappingHeader 0 := by
    have hhere : Meets FragmentTable.empty.opened wrappingHeader.encode
        (DTXMessageHeader.decode wrappingHeader.encode) _ :=
      .here (by simp) (by rw [hheader]; decide)
    rwa [hheader, DTXMessageHeader.encode_length] at hhere
  -- neither is the sum below `2 ^ 32`, nor is there a byte behind the header
  have hfit := (staysInside_call_iff {} _).mp hcall _ _ hmeets
  revert hfit
  decide

end IDevice
