import Minotaur.Protocols.Telnet.Negotiation

/-!
The lines of a Telnet session. `nvtLines` splits the decoder's output by the
rule of the network virtual terminal; the reader, which sees one byte at a time
and keeps a CR aside until it has seen the next, is always in the middle of
that split. `resume` is what remains of it.
-/

namespace Minotaur.Telnet

/-! ### The rule -/

/-- LF or CR LF ends a line, CR NUL is a literal CR, and so is a CR before any
other byte. The last line has no end; a CR no byte follows is not part of it. -/
def nvtLines : List UInt8 → List (List UInt8)
  | [] => [[]]
  | [byte] => if byte = 10 then [[], []] else if byte = 13 then [[]] else [[byte]]
  | byte :: next :: rest =>
      if byte = 10 then [] :: nvtLines (next :: rest)
      else if byte = 13 ∧ next = 10 then [] :: nvtLines rest
      else if byte = 13 ∧ next = 0 then (nvtLines rest).modifyHead (13 :: ·)
      else (nvtLines (next :: rest)).modifyHead (byte :: ·)

/-- The data are empty or end with the end of a line. -/
def AtLineEnd (data : List UInt8) : Prop := ∀ byte, data.getLast? = some byte → byte = 10

instance (data : List UInt8) : Decidable (AtLineEnd data) :=
  decidable_of_iff (data.getLast?.all (· = 10) = true) (by
    unfold AtLineEnd
    cases data.getLast? <;> simp)

theorem nvtLines_newline (data : List UInt8) : nvtLines (10 :: data) = [] :: nvtLines data := by
  cases data with
  | nil => rfl
  | cons next rest => rw [nvtLines, if_pos rfl]

theorem nvtLines_plain {byte : UInt8} (hnewline : byte ≠ 10) (hreturn : byte ≠ 13)
    (data : List UInt8) : nvtLines (byte :: data) = (nvtLines data).modifyHead (byte :: ·) := by
  cases data with
  | nil => simp [nvtLines, hnewline, hreturn]
  | cons next rest => simp [nvtLines, hnewline, hreturn]

theorem nvtLines_return_newline (data : List UInt8) :
    nvtLines (13 :: 10 :: data) = [] :: nvtLines data := by
  simp [nvtLines]

theorem nvtLines_return_null (data : List UInt8) :
    nvtLines (13 :: 0 :: data) = (nvtLines data).modifyHead (13 :: ·) := by
  simp [nvtLines]

theorem nvtLines_return {byte : UInt8} (hnewline : byte ≠ 10) (hnull : byte ≠ 0)
    (data : List UInt8) :
    nvtLines (13 :: byte :: data) = (nvtLines (byte :: data)).modifyHead (13 :: ·) := by
  simp [nvtLines, hnewline, hnull]

theorem nvtLines_ne_nil (data : List UInt8) : nvtLines data ≠ [] := by
  fun_induction nvtLines data with
  | case1 => exact List.cons_ne_nil _ _
  | case2 => exact List.cons_ne_nil _ _
  | case3 => exact List.cons_ne_nil _ _
  | case4 => exact List.cons_ne_nil _ _
  | case5 => exact List.cons_ne_nil _ _
  | case6 => exact List.cons_ne_nil _ _
  | case7 byte next rest _ _ _ ih => simpa using ih
  | case8 byte next rest _ _ _ ih => simpa using ih

/-! ### Whole lines -/

/-- What a reader of whole lines finds next. -/
inductive NextLine where
  | line (content : List UInt8) (rest : List (List UInt8))
  | oversized
  | ended

def nextLine : List (List UInt8) → NextLine
  | [] => .ended
  | [last] => if maxLine < last.length then .oversized else .ended
  | line :: next :: rest => if maxLine < line.length then .oversized else .line line (next :: rest)

theorem nextLine_cons {line : List UInt8} {rest : List (List UInt8)}
    (hshort : line.length ≤ maxLine) (hrest : rest ≠ []) :
    nextLine (line :: rest) = .line line rest := by
  obtain ⟨next, others, rfl⟩ := List.exists_cons_of_ne_nil hrest
  rw [nextLine, if_neg (Nat.not_lt.mpr hshort)]

theorem nextLine_long {line : List UInt8} (hlong : maxLine < line.length)
    (rest : List (List UInt8)) : nextLine (line :: rest) = .oversized := by
  cases rest <;> rw [nextLine, if_pos hlong]

theorem nextLine_single {line : List UInt8} (hshort : line.length ≤ maxLine) :
    nextLine [line] = .ended := if_neg (Nat.not_lt.mpr hshort)

theorem nextLine_short {lines rest : List (List UInt8)} {line : List UInt8}
    (hline : nextLine lines = .line line rest) : line.length ≤ maxLine := by
  unfold nextLine at hline
  split at hline
  · cases hline
  · split_ifs at hline
  · split_ifs at hline with hlong
    cases hline
    exact Nat.not_lt.mp hlong

/-- There is no whole line to read. -/
def Stuck (lines : List (List UInt8)) : Prop := ∀ content rest, nextLine lines ≠ .line content rest

/-! ### The reader -/

/-- The lines of the data to come, after `line` and perhaps a CR. -/
def resume (line : List UInt8) (pendingCr : Bool) (data : List UInt8) : List (List UInt8) :=
  (nvtLines (if pendingCr then 13 :: data else data)).modifyHead (line ++ ·)

theorem resume_nil (data : List UInt8) : resume [] false data = nvtLines data := by
  obtain ⟨first, rest, hlines⟩ := List.exists_cons_of_ne_nil (nvtLines_ne_nil data)
  simp [resume, hlines]

theorem resume_end (line : List UInt8) (pendingCr : Bool) : resume line pendingCr [] = [line] := by
  cases pendingCr <;> simp [resume, nvtLines]

theorem resume_ne_nil (line : List UInt8) (pendingCr : Bool) (data : List UInt8) :
    resume line pendingCr data ≠ [] := by
  simp [resume, nvtLines_ne_nil]

/-- What it means that a data byte does this to the line. -/
def Consumed.Reads (lines : List UInt8 → List (List UInt8)) (byte : UInt8) : Consumed → Prop
  | .complete line => byte = 10 ∧ line.length ≤ maxLine ∧ ∀ data, lines data = line :: nvtLines data
  | .more line pendingCr => byte ≠ 10 ∧ (line ≠ [] ∨ pendingCr = true) ∧ line.length ≤ maxLine ∧
      ∀ data, lines data = resume line pendingCr data
  | .tooLong => ∀ data, ∃ line rest, lines data = line :: rest ∧ maxLine < line.length

theorem resume_append (line data : List UInt8) (byte : UInt8) :
    ((nvtLines data).modifyHead (byte :: ·)).modifyHead (line ++ ·) =
      resume (line ++ [byte]) false data := by
  unfold resume
  rw [List.modifyHead_modifyHead]
  congr 1
  funext rest
  simp

theorem length_append {line next : List UInt8} {byte : UInt8}
    (happend : append line byte = some next) :
    next = line ++ [byte] ∧ next.length ≤ maxLine := by
  unfold append at happend
  split_ifs at happend with hfull
  obtain rfl := Option.some.inj happend
  refine ⟨rfl, ?_⟩
  rw [List.length_append, List.length_singleton]
  omega

/-- A line too long for one more byte is too long with it. -/
theorem tooLong_of_append {line : List UInt8} {byte : UInt8} (happend : append line byte = none)
    (data : List UInt8) :
    ∃ first rest, resume (line ++ [byte]) false data = first :: rest ∧ maxLine < first.length := by
  obtain ⟨first, rest, hlines⟩ := List.exists_cons_of_ne_nil (nvtLines_ne_nil data)
  unfold append at happend
  split_ifs at happend with hfull
  refine ⟨line ++ [byte] ++ first, rest, by simp [resume, hlines], ?_⟩
  simp only [List.length_append, List.length_singleton]
  omega

theorem consumeByte_reads {line : List UInt8} (hshort : line.length ≤ maxLine) (byte : UInt8) :
    (consumeByte line byte).Reads (fun data => resume line false (byte :: data)) byte := by
  unfold consumeByte
  split_ifs with hreturn hnewline
  · subst hreturn
    exact ⟨by decide, Or.inr rfl, hshort, fun data => rfl⟩
  · subst hnewline
    refine ⟨rfl, hshort, fun data => ?_⟩
    simp [resume, nvtLines_newline]
  · have hplain : ∀ data, resume line false (byte :: data) = resume (line ++ [byte]) false data := by
      intro data
      rw [← resume_append, ← nvtLines_plain hnewline hreturn]
      rfl
    cases happend : append line byte with
    | none =>
        intro data
        dsimp only
        rw [hplain]
        exact tooLong_of_append happend data
    | some next =>
        obtain ⟨rfl, hnext⟩ := length_append happend
        exact ⟨hnewline, Or.inl (by simp), hnext, hplain⟩

/-- A CR that does not end the line is literal. -/
theorem resume_return {byte : UInt8} (hnewline : byte ≠ 10) (line data : List UInt8) :
    resume line true (byte :: data) =
      resume (line ++ [13]) false (if byte = 0 then data else byte :: data) := by
  rw [← resume_append]
  by_cases hnull : byte = 0
  · subst hnull
    rw [if_pos rfl, ← nvtLines_return_null]
    rfl
  · rw [if_neg hnull, ← nvtLines_return hnewline hnull]
    rfl

theorem consume_reads {line : List UInt8} (hshort : line.length ≤ maxLine) (pendingCr : Bool)
    (byte : UInt8) :
    (consume line pendingCr byte).Reads (fun data => resume line pendingCr (byte :: data)) byte := by
  cases pendingCr with
  | false => exact consumeByte_reads hshort byte
  | true =>
      unfold consume
      rw [if_pos rfl]
      by_cases hnewline : byte = 10
      · subst hnewline
        refine ⟨rfl, hshort, fun data => ?_⟩
        simp [resume, nvtLines_return_newline]
      · simp only [if_neg hnewline, resume_return hnewline]
        cases happend : append line 13 with
        | none => exact fun data => tooLong_of_append happend _
        | some next =>
            obtain ⟨rfl, hnext⟩ := length_append happend
            dsimp only
            split_ifs with hnull
            · subst hnull
              exact ⟨by decide, Or.inl (by simp), hnext, fun data => rfl⟩
            · exact consumeByte_reads hnext byte

/-! ### Emptying the queue -/

theorem atLineEnd_append (data : List UInt8) (byte : UInt8) :
    AtLineEnd (data ++ [byte]) ↔ byte = 10 := by
  unfold AtLineEnd
  rw [List.getLast?_concat]
  simp

/-- The data in a stream. -/
def dataOf (stream : List UInt8) : List UInt8 := (({} : TelnetDecoder).decode stream).2

/-- The reader has processed these bytes, has its queue and then `future`
before it, and `lines` to find there. -/
structure LineReader.At (reader : LineReader) (processed future : List UInt8)
    (lines : List (List UInt8)) : Prop where
  decoder : reader.decoder = (({} : TelnetDecoder).decode processed).1
  short : reader.line.length ≤ maxLine
  midway : (reader.line ≠ [] ∨ reader.pendingCr = true) ↔ ¬ AtLineEnd (dataOf processed)
  lines : resume reader.line reader.pendingCr
    (reader.decoder.decode (reader.pending ++ future)).2 = lines

/-- What the queue gave, in terms of the lines. -/
def LineReader.Gives (reader : LineReader) (processed future : List UInt8)
    (lines : List (List UInt8)) : Pumped → Prop
  | .complete line after => ∃ rest used, lines = line :: rest ∧ rest ≠ [] ∧
      line.length ≤ maxLine ∧ used ++ after.pending = reader.pending ∧
      after.At (processed ++ used) future rest
  | .drained after => after.pending = [] ∧ after.At (processed ++ reader.pending) future lines
  | .tooLong => ∃ line rest, lines = line :: rest ∧ maxLine < line.length

section Queue

variable {pending processed future line : List UInt8} {decoder : TelnetDecoder}
  {pendingCr : Bool} {lines : List (List UInt8)} {byte : UInt8}

/-- One byte of the queue further on. -/
theorem LineReader.Gives.cons {next : TelnetDecoder} {other : List UInt8} {otherCr : Bool}
    {result : Pumped}
    (h : LineReader.Gives ⟨pending, next, other, otherCr⟩ (processed ++ [byte]) future lines
      result) :
    LineReader.Gives ⟨byte :: pending, decoder, line, pendingCr⟩ processed future lines result := by
  cases result with
  | complete line after =>
      obtain ⟨rest, used, hlines, hrest, hshort, hused, hafter⟩ := h
      refine ⟨rest, byte :: used, hlines, hrest, hshort, ?_, ?_⟩
      · rw [List.cons_append, hused]
      · rw [List.append_assoc] at hafter
        exact hafter
  | drained after =>
      obtain ⟨hempty, hafter⟩ := h
      rw [List.append_assoc] at hafter
      exact ⟨hempty, hafter⟩
  | tooLong => exact h

theorem decode_snoc (hdecoder : decoder = (({} : TelnetDecoder).decode processed).1) :
    (({} : TelnetDecoder).decode (processed ++ [byte])).1 = (decoder.feed byte).1 ∧
      dataOf (processed ++ [byte]) = dataOf processed ++ (decoder.feed byte).2.toList := by
  unfold dataOf
  rw [TelnetDecoder.decode_append, ← hdecoder]
  exact ⟨rfl, by simp [TelnetDecoder.decode]⟩

theorem pump_gives
    (h : LineReader.At ⟨pending, decoder, line, pendingCr⟩ processed future lines) :
    LineReader.Gives ⟨pending, decoder, line, pendingCr⟩ processed future lines
      (pump decoder line pendingCr pending) := by
  induction pending generalizing decoder line pendingCr processed with
  | nil =>
      unfold pump
      refine ⟨rfl, ?_⟩
      rw [List.append_nil]
      exact h
  | cons byte pending ih =>
      obtain ⟨hdecoder, hshort, hmidway, hlines⟩ := h
      obtain ⟨hnext, hdata⟩ := @decode_snoc processed decoder byte hdecoder
      dsimp only at hlines hmidway hshort
      rw [List.cons_append, TelnetDecoder.decode_cons] at hlines
      unfold pump
      cases hfeed : decoder.feed byte with
      | mk next out =>
          rw [hfeed] at hnext hdata hlines
          cases out with
          | none =>
              simp only [Option.toList_none, List.append_nil, List.nil_append] at hdata hlines
              apply LineReader.Gives.cons (ih ⟨hnext.symm, hshort, ?_, hlines⟩)
              rw [hdata]
              exact hmidway
          | some data =>
              simp only [Option.toList_some, List.singleton_append] at hdata hlines
              have hreads := consume_reads hshort pendingCr data
              dsimp only
              cases hconsume : consume line pendingCr data with
              | complete result =>
                  rw [hconsume] at hreads
                  obtain ⟨rfl, hresult, hrest⟩ := hreads
                  refine ⟨_, [byte], hlines.symm.trans (hrest _), nvtLines_ne_nil _, hresult, rfl,
                    hnext.symm, Nat.zero_le _, ?_, resume_nil _⟩
                  rw [hdata, atLineEnd_append]
                  simp
              | more result otherCr =>
                  rw [hconsume] at hreads
                  obtain ⟨hnewline, hopen, hresult, hrest⟩ := hreads
                  apply LineReader.Gives.cons (ih ⟨hnext.symm, hresult, ?_, ?_⟩)
                  · rw [hdata, atLineEnd_append]
                    exact iff_of_true hopen hnewline
                  · exact (hrest _).symm.trans hlines
              | tooLong =>
                  rw [hconsume] at hreads
                  obtain ⟨first, rest, hfirst, hlong⟩ := hreads _
                  exact ⟨first, rest, hlines.symm.trans hfirst, hlong⟩

end Queue

/-! ### The bytes received so far -/

namespace LineReader

/-- The lines the reader has before it if `future` is still to come. -/
def rest (reader : LineReader) (future : List UInt8) : List (List UInt8) :=
  resume reader.line reader.pendingCr (reader.decoder.decode (reader.pending ++ future)).2

/-- The reader was given these bytes. -/
def Reading (reader : LineReader) (received : List UInt8) : Prop :=
  ∃ processed, processed ++ reader.pending = received ∧
    ∀ future, reader.At processed future (reader.rest future)

variable {reader : LineReader} {received : List UInt8}

theorem rest_ne_nil (future : List UInt8) : reader.rest future ≠ [] := resume_ne_nil _ _ _

theorem rest_new (future : List UInt8) :
    ({} : LineReader).rest future = nvtLines (dataOf future) := resume_nil _

theorem reading_new : ({} : LineReader).Reading [] :=
  ⟨[], rfl, fun _ => ⟨rfl, Nat.zero_le _, by decide, rfl⟩⟩

theorem At.reading {processed future : List UInt8} {lines : List (List UInt8)}
    (h : reader.At processed future lines) : reader.Reading (processed ++ reader.pending) :=
  ⟨processed, rfl, fun _ => ⟨h.decoder, h.short, h.midway, rfl⟩⟩

theorem Reading.receive (h : reader.Reading received) (buffer : List UInt8) :
    { reader with pending := reader.pending ++ buffer }.Reading (received ++ buffer) := by
  obtain ⟨processed, rfl, hat⟩ := h
  refine ⟨processed, (List.append_assoc _ _ _).symm, fun future => ?_⟩
  exact ⟨(hat future).decoder, (hat future).short, (hat future).midway, rfl⟩

theorem rest_receive (reader : LineReader) (buffer future : List UInt8) :
    { reader with pending := reader.pending ++ buffer }.rest future =
      reader.rest (buffer ++ future) := by
  simp [rest]

/-- What the queue gives to a reader that was given these bytes. -/
def Pumps (reader : LineReader) (received : List UInt8) : Pumped → Prop
  | .complete line after => line.length ≤ maxLine ∧ after.Reading received ∧
      ∀ future, reader.rest future = line :: after.rest future
  | .drained after => after.Reading received ∧ Stuck (reader.rest []) ∧
      ∀ future, reader.rest future = after.rest future
  | .tooLong => Stuck (reader.rest [])

theorem Reading.pump (h : reader.Reading received) :
    reader.Pumps received (pump reader.decoder reader.line reader.pendingCr reader.pending) := by
  obtain ⟨processed, rfl, hat⟩ := h
  have hgives := fun future => pump_gives (hat future)
  cases hpump : Telnet.pump reader.decoder reader.line reader.pendingCr reader.pending with
  | complete line after =>
      rw [hpump] at hgives
      obtain ⟨_, used, _, _, hshort, hused, hafter⟩ := hgives []
      refine ⟨hshort, ?_, fun future => ?_⟩
      · rw [← hused, ← List.append_assoc]
        exact hafter.reading
      · obtain ⟨_, _, hlines, _, _, _, hlater⟩ := hgives future
        rw [hlines, ← hlater.lines]
        rfl
  | drained after =>
      rw [hpump] at hgives
      have hrest : ∀ future, reader.rest future = after.rest future :=
        fun future => (hgives future).2.lines.symm
      obtain ⟨hempty, hafter⟩ := hgives []
      refine ⟨?_, ?_, hrest⟩
      · have hreading := hafter.reading
        rwa [hempty, List.append_nil] at hreading
      · intro content rest
        have hend : after.rest [] = [after.line] := by
          unfold LineReader.rest
          rw [hempty]
          exact resume_end _ _
        rw [hrest, hend, nextLine_single hafter.short]
        nofun
  | tooLong =>
      rw [hpump] at hgives
      obtain ⟨line, rest, hlines, hlong⟩ := hgives []
      intro content others
      rw [hlines, nextLine_long hlong]
      nofun

end LineReader

end Minotaur.Telnet
