import Mathlib.Tactic.Ring
import Opsia.Lib.Lines

/-!
# Redacted terminal output

`StreamingOutputRedactor` masks each complete line of a pod exec stream before it is emitted in
bounded chunks, but a line that outgrows a chunk is masked and emitted in the pieces in which it
arrived. The output is the masked text exactly as long as no such piece is followed by more text.
-/

namespace Opsia.Terminal

/-- A text, as the list of its characters. -/
abbrev Text := List Char

/-- The most characters of a `TerminalOutput`. -/
def maxTerminalOutputChunkLength : ℕ := 8192

/-- The terminator of a line. -/
def newline : Char := '\n'

/-! ## The code -/

def boundedChunks (value : Text) : List Text :=
  let count := (value.length + maxTerminalOutputChunkLength - 1) / maxTerminalOutputChunkLength
  ((List.range count).map fun index =>
    (value.drop (index * maxTerminalOutputChunkLength)).take maxTerminalOutputChunkLength).filter
      (· ≠ [])

structure StreamingOutputRedactor where
  buffer : Text := []
  deriving DecidableEq

variable (redactLogLine : Text → Text)

/-- The loop of `feed`: while the buffer has a line, its chunks. -/
def takeLines (buffer : Text) (chunks : List Text) : Text × List Text :=
  if newline ∈ buffer then
    -- `self.buffer.split("\n", 1)`
    let line := buffer.takeWhile (· ≠ newline)
    let rest := (buffer.dropWhile (· ≠ newline)).tail
    takeLines rest (chunks ++ boundedChunks (redactLogLine line ++ [newline]))
  else (buffer, chunks)
  termination_by buffer.length
  decreasing_by
    have hskip := (List.dropWhile_suffix (l := buffer) (· ≠ newline)).length_le
    have hpositive := List.length_pos_of_mem ‹newline ∈ buffer›
    simp only [List.length_tail]
    omega

/-- `StreamingOutputRedactor.feed`: the chunks that are emitted, and the redactor afterwards. -/
def StreamingOutputRedactor.feed (redactor : StreamingOutputRedactor) (value : Text) :
    List Text × StreamingOutputRedactor :=
  let (buffer, chunks) := takeLines redactLogLine (redactor.buffer ++ value) []
  if buffer.length > maxTerminalOutputChunkLength then
    (chunks ++ boundedChunks (redactLogLine buffer), { buffer := [] })
  else (chunks, { buffer })

def StreamingOutputRedactor.flush (redactor : StreamingOutputRedactor) : List Text :=
  if redactor.buffer = [] then [] else boundedChunks (redactLogLine redactor.buffer)

/-- What a redactor emits over calls of `feed` and the `flush` after them. -/
def StreamingOutputRedactor.emitted (redactor : StreamingOutputRedactor) : List Text → List Text
  | [] => redactor.flush redactLogLine
  | value :: values =>
    let (chunks, redactor) := redactor.feed redactLogLine value
    chunks ++ redactor.emitted values

inductive TerminalStream where
  | stdout
  | stderr
  deriving DecidableEq

/-- The output of `PodExecController._run`: every frame goes to the redactor of its stream, and at
the end both are flushed. -/
def emittedOutput (redactor : TerminalStream → StreamingOutputRedactor) :
    List (TerminalStream × Text) → List (TerminalStream × Text)
  | [] => ((redactor .stdout).flush redactLogLine).map (.stdout, ·) ++
      ((redactor .stderr).flush redactLogLine).map (.stderr, ·)
  | (stream, data) :: frames =>
    let (chunks, fed) := (redactor stream).feed redactLogLine data
    chunks.map (stream, ·) ++ emittedOutput (Function.update redactor stream fed) frames

/-! ## Chunks -/

theorem flatten_windows (n count : ℕ) (value : Text) :
    ((List.range count).map fun index => (value.drop (index * n)).take n).flatten =
      value.take (count * n) := by
  induction count with
  | zero => simp
  | succ count ih =>
    rw [List.range_succ, List.map_append, List.flatten_append, ih, Nat.succ_mul, List.take_add]
    simp

/-- **Chunks are the text in pieces.** -/
theorem flatten_boundedChunks (value : Text) : (boundedChunks value).flatten = value := by
  have hall : value.length ≤ (value.length + maxTerminalOutputChunkLength - 1) /
      maxTerminalOutputChunkLength * maxTerminalOutputChunkLength := by
    simp only [maxTerminalOutputChunkLength]
    omega
  rw [boundedChunks, List.flatten_filter_ne_nil, flatten_windows, List.take_of_length_le hall]

/-- A chunk that `TerminalOutput` takes. -/
def FitsTerminalOutput (chunk : Text) : Prop :=
  chunk ≠ [] ∧ chunk.length ≤ maxTerminalOutputChunkLength

theorem fits_of_mem_boundedChunks {value chunk : Text} (h : chunk ∈ boundedChunks value) :
    FitsTerminalOutput chunk := by
  obtain ⟨hwindow, hne⟩ := List.mem_filter.mp h
  obtain ⟨index, -, rfl⟩ := List.mem_map.mp hwindow
  exact ⟨by simpa using hne, List.length_take_le _ _⟩

variable {redactLogLine}

/-! ## Calls of `feed` -/

variable {buffer : Text} {values : List Text} {redactor : StreamingOutputRedactor}

theorem takeLines_of_not_mem (h : newline ∉ buffer) (chunks : List Text) :
    takeLines redactLogLine buffer chunks = (buffer, chunks) := by
  rw [takeLines, if_neg h]

theorem takeLines_line {line : Text} (h : newline ∉ line) (text : Text) (chunks : List Text) :
    takeLines redactLogLine (line ++ newline :: text) chunks =
      takeLines redactLogLine text
        (chunks ++ boundedChunks (redactLogLine line ++ [newline])) := by
  have hkeep : ∀ c ∈ line, decide (c ≠ newline) = true := by
    intro c hc
    simpa using ne_of_mem_of_not_mem hc h
  rw [takeLines, if_pos (by simp)]
  simp only [List.takeWhile_append_of_pos hkeep, List.dropWhile_append_of_pos hkeep]
  simp

variable (redactLogLine) in
/-- **The loop takes the complete lines and leaves the remainder.** -/
theorem takeLines_spec (buffer : Text) (chunks : List Text) :
    (takeLines redactLogLine buffer chunks).1 = Lines.remainder newline buffer ∧
      (takeLines redactLogLine buffer chunks).2.flatten =
        chunks.flatten ++ Lines.completed newline redactLogLine buffer := by
  induction buffer using Lines.induct newline generalizing chunks with
  | unterminated text htext =>
    rw [takeLines_of_not_mem htext, Lines.remainder_of_not_mem htext,
      Lines.completed_of_not_mem htext]
    simp
  | line line text hline ih =>
    obtain ⟨hbuffer, hchunks⟩ := ih (chunks ++ boundedChunks (redactLogLine line ++ [newline]))
    rw [takeLines_line hline, Lines.remainder_line hline, Lines.completed_line hline]
    refine ⟨hbuffer, ?_⟩
    rw [hchunks, List.flatten_append, flatten_boundedChunks]
    simp

theorem fits_takeLines {chunk : Text} {chunks : List Text}
    (hchunks : ∀ chunk ∈ chunks, FitsTerminalOutput chunk)
    (h : chunk ∈ (takeLines redactLogLine buffer chunks).2) : FitsTerminalOutput chunk := by
  induction buffer using Lines.induct newline generalizing chunks with
  | unterminated text htext =>
    rw [takeLines_of_not_mem htext] at h
    exact hchunks chunk h
  | line line text hline ih =>
    rw [takeLines_line hline] at h
    refine ih (fun chunk hmem => ?_) h
    rcases List.mem_append.mp hmem with hold | hnew
    · exact hchunks chunk hold
    · exact fits_of_mem_boundedChunks hnew

variable (redactLogLine) in
/-- A call of `feed` after which the line is short enough to wait for its end. -/
theorem feed_of_fits {value : Text} (h : (Lines.remainder newline (buffer ++ value)).length ≤
    maxTerminalOutputChunkLength) :
    (StreamingOutputRedactor.feed redactLogLine { buffer } value).2 =
        { buffer := Lines.remainder newline (buffer ++ value) } ∧
      (StreamingOutputRedactor.feed redactLogLine { buffer } value).1.flatten =
        Lines.completed newline redactLogLine (buffer ++ value) := by
  obtain ⟨hbuffer, hchunks⟩ := takeLines_spec redactLogLine (buffer ++ value) []
  simp only [StreamingOutputRedactor.feed, hbuffer, if_neg (Nat.not_lt.mpr h)]
  simp [hchunks]

variable (redactLogLine) in
/-- A call of `feed` after which the line is too long: what there is of it is masked and emitted. -/
theorem feed_of_overflow {value : Text}
    (h : maxTerminalOutputChunkLength < (Lines.remainder newline (buffer ++ value)).length) :
    (StreamingOutputRedactor.feed redactLogLine { buffer } value).2 = { buffer := [] } ∧
      (StreamingOutputRedactor.feed redactLogLine { buffer } value).1.flatten =
        Lines.completed newline redactLogLine (buffer ++ value) ++
          redactLogLine (Lines.remainder newline (buffer ++ value)) := by
  obtain ⟨hbuffer, hchunks⟩ := takeLines_spec redactLogLine (buffer ++ value) []
  simp only [StreamingOutputRedactor.feed, hbuffer, gt_iff_lt, if_pos h]
  simp [hchunks, flatten_boundedChunks]

theorem flatten_flush (buffer : Text) :
    (StreamingOutputRedactor.flush redactLogLine { buffer }).flatten =
      Lines.rest redactLogLine buffer := by
  simp only [StreamingOutputRedactor.flush, Lines.rest]
  split
  · rfl
  · exact flatten_boundedChunks _

variable (redactLogLine) in
/-- The text that a redactor with a buffer emits. -/
def output (buffer : Text) (values : List Text) : Text :=
  (StreamingOutputRedactor.emitted redactLogLine { buffer } values).flatten

theorem output_nil (buffer : Text) : output redactLogLine buffer [] =
    Lines.rest redactLogLine buffer := flatten_flush buffer

theorem output_of_fits {value : Text}
    (h : (Lines.remainder newline (buffer ++ value)).length ≤ maxTerminalOutputChunkLength)
    (values : List Text) :
    output redactLogLine buffer (value :: values) =
      Lines.completed newline redactLogLine (buffer ++ value) ++
        output redactLogLine (Lines.remainder newline (buffer ++ value)) values := by
  obtain ⟨hredactor, hchunks⟩ := feed_of_fits redactLogLine h
  simp only [output, StreamingOutputRedactor.emitted, List.flatten_append, hchunks, hredactor]

theorem output_of_overflow {value : Text}
    (h : maxTerminalOutputChunkLength < (Lines.remainder newline (buffer ++ value)).length)
    (values : List Text) :
    output redactLogLine buffer (value :: values) =
      Lines.completed newline redactLogLine (buffer ++ value) ++
        (redactLogLine (Lines.remainder newline (buffer ++ value)) ++
          output redactLogLine [] values) := by
  obtain ⟨hredactor, hchunks⟩ := feed_of_overflow redactLogLine h
  simp only [output, StreamingOutputRedactor.emitted, List.flatten_append, hchunks, hredactor,
    List.append_assoc]

theorem fits_of_mem_flush {chunk : Text} (h : chunk ∈ redactor.flush redactLogLine) :
    FitsTerminalOutput chunk := by
  simp only [StreamingOutputRedactor.flush] at h
  split at h
  · simp at h
  · exact fits_of_mem_boundedChunks h

theorem fits_of_mem_feed {value chunk : Text} (h : chunk ∈ (redactor.feed redactLogLine value).1) :
    FitsTerminalOutput chunk := by
  have hlines : ∀ chunk ∈ (takeLines redactLogLine (redactor.buffer ++ value) []).2,
      FitsTerminalOutput chunk := fun chunk hmem => fits_takeLines (by simp) hmem
  simp only [StreamingOutputRedactor.feed] at h
  split at h
  · rcases List.mem_append.mp h with hline | hline
    · exact hlines chunk hline
    · exact fits_of_mem_boundedChunks hline
  · exact hlines chunk h

/-- **Whatever the cuts, every chunk is one that `TerminalOutput` takes.** -/
theorem fits_of_mem_emitted {chunk : Text} (h : chunk ∈ redactor.emitted redactLogLine values) :
    FitsTerminalOutput chunk := by
  induction values generalizing redactor with
  | nil => exact fits_of_mem_flush h
  | cons value values ih =>
    simp only [StreamingOutputRedactor.emitted] at h
    rcases List.mem_append.mp h with hfeed | hlater
    · exact fits_of_mem_feed hfeed
    · exact ih hlater

/-- The texts of one stream. -/
def ofStream (stream : TerminalStream) (texts : List (TerminalStream × Text)) : List Text :=
  (texts.filter (·.1 = stream)).map Prod.snd

@[simp] theorem ofStream_append (stream : TerminalStream) (first second) :
    ofStream stream (first ++ second) = ofStream stream first ++ ofStream stream second := by
  simp [ofStream]

@[simp] theorem ofStream_tagged (stream source : TerminalStream) (texts : List Text) :
    ofStream stream (texts.map (source, ·)) = if source = stream then texts else [] := by
  induction texts with
  | nil => simp [ofStream]
  | cons text texts ih =>
    simp only [ofStream, List.map_cons, List.filter_cons] at ih ⊢
    by_cases hsource : source = stream
    · simpa [hsource] using ih
    · simp [hsource]

/-- Text is only fed while the line before it is short enough to wait for it. -/
def LinesWait (values : List Text) : Prop :=
  ∀ before after : List Text, values = before ++ after → after.flatten ≠ [] →
    (Lines.remainder newline before.flatten).length ≤ maxTerminalOutputChunkLength

/-- The same for a redactor with a buffer. -/
def LinesWaitFrom (buffer : Text) (values : List Text) : Prop :=
  ∀ value before after, values = (value :: before) ++ after → after.flatten ≠ [] →
    (Lines.remainder newline (buffer ++ (value :: before).flatten)).length ≤
      maxTerminalOutputChunkLength

theorem LinesWaitFrom.tail {value : Text} (h : LinesWaitFrom buffer (value :: values)) :
    LinesWaitFrom (Lines.remainder newline (buffer ++ value)) values := by
  rintro next before after rfl hafter
  have hwait := h value (next :: before) after rfl hafter
  rwa [List.flatten_cons, ← List.append_assoc, Lines.remainder_append] at hwait

theorem linesWaitFrom_cons {value : Text}
    (hfits : values.flatten ≠ [] → (Lines.remainder newline (buffer ++ value)).length ≤
      maxTerminalOutputChunkLength)
    (h : LinesWaitFrom (Lines.remainder newline (buffer ++ value)) values) :
    LinesWaitFrom buffer (value :: values) := by
  intro first before after hvalues hafter
  obtain ⟨hfirst, hlater⟩ := List.cons.inj hvalues
  subst hfirst
  cases before with
  | nil =>
    obtain rfl : values = after := hlater
    simpa using hfits hafter
  | cons next before =>
    have hwait := h next before after hlater hafter
    rwa [List.flatten_cons, ← List.append_assoc, Lines.remainder_append]

theorem linesWaitFrom_of_flatten_nil (h : values.flatten = []) (buffer : Text) :
    LinesWaitFrom buffer values := by
  rintro value before after rfl hafter
  rw [List.flatten_append] at h
  exact absurd (List.append_eq_nil_iff.mp h).2 hafter

variable (redactLogLine) in
/-- **Where the lines wait, the output is the text with each line masked.** -/
theorem output_of_linesWait (hbuffer : newline ∉ buffer) (h : LinesWaitFrom buffer values) :
    output redactLogLine buffer values =
      Lines.eachLine newline redactLogLine (buffer ++ values.flatten) := by
  induction values generalizing buffer with
  | nil =>
    rw [output_nil, List.flatten_nil, List.append_nil, Lines.eachLine_of_not_mem hbuffer]
  | cons value values ih =>
    have hline := Lines.not_mem_remainder newline (buffer ++ value)
    rw [List.flatten_cons, ← List.append_assoc, Lines.eachLine_append]
    by_cases hfits : (Lines.remainder newline (buffer ++ value)).length ≤
        maxTerminalOutputChunkLength
    · rw [output_of_fits hfits, ih hline h.tail]
    · -- Only empty texts can follow.
      have hlast : values.flatten = [] := by
        by_contra hmore
        exact hfits (by simpa using h value [] values rfl hmore)
      rw [output_of_overflow (by omega), ih (by simp) (linesWaitFrom_of_flatten_nil hlast []),
        hlast, List.append_nil, List.append_nil, Lines.eachLine_of_not_mem (by simp),
        Lines.eachLine_of_not_mem hline, Lines.rest, Lines.rest, if_pos rfl, if_neg ?_,
        List.append_nil]
      intro hempty
      rw [hempty] at hfits
      exact hfits (Nat.zero_le _)

/-! ## The cuts that show -/

/-- A masking that gives every line the same length. -/
def maskAll (_ : Text) : Text := ['*']

theorem length_maskAll (line : Text) : (maskAll line).length = 1 := rfl

theorem length_output_ge (hbuffer : newline ∉ buffer) :
    (Lines.eachLine newline maskAll (buffer ++ values.flatten)).length ≤
      (output maskAll buffer values).length := by
  induction values generalizing buffer with
  | nil =>
    rw [output_nil, List.flatten_nil, List.append_nil, Lines.eachLine_of_not_mem hbuffer]
  | cons value values ih =>
    have hline := Lines.not_mem_remainder newline (buffer ++ value)
    rw [List.flatten_cons, ← List.append_assoc, Lines.eachLine_append]
    by_cases hfits : (Lines.remainder newline (buffer ++ value)).length ≤
        maxTerminalOutputChunkLength
    · rw [output_of_fits hfits, List.length_append, List.length_append]
      exact Nat.add_le_add_left (ih hline) _
    · have hlater := ih (show newline ∉ [] by simp)
      rw [List.nil_append] at hlater
      rw [output_of_overflow (by omega), List.length_append, List.length_append,
        List.length_append, length_maskAll]
      by_cases hmore : values.flatten = []
      · rw [hmore, List.append_nil, Lines.eachLine_of_not_mem hline]
        have hrest :
            (Lines.rest maskAll (Lines.remainder newline (buffer ++ value))).length ≤ 1 := by
          simp only [Lines.rest]
          split <;> simp [maskAll]
        omega
      · rw [Lines.length_eachLine_append length_maskAll hline hmore]
        omega

/-- **A line that is cut and goes on is masked more than once.** -/
theorem length_output_gt (hbuffer : newline ∉ buffer) (h : ¬LinesWaitFrom buffer values) :
    (Lines.eachLine newline maskAll (buffer ++ values.flatten)).length <
      (output maskAll buffer values).length := by
  induction values generalizing buffer with
  | nil =>
    exact absurd (linesWaitFrom_of_flatten_nil rfl buffer) h
  | cons value values ih =>
    have hline := Lines.not_mem_remainder newline (buffer ++ value)
    rw [List.flatten_cons, ← List.append_assoc, Lines.eachLine_append]
    by_cases hfits : (Lines.remainder newline (buffer ++ value)).length ≤
        maxTerminalOutputChunkLength
    · rw [output_of_fits hfits, List.length_append, List.length_append]
      refine Nat.add_lt_add_left (ih hline fun hwait => h ?_) _
      exact linesWaitFrom_cons (fun _ => hfits) hwait
    · have hmore : values.flatten ≠ [] := by
        intro hlast
        exact h (linesWaitFrom_cons (fun hafter => absurd hlast hafter)
          (linesWaitFrom_of_flatten_nil hlast _))
      have hlater : _ ≤ (output maskAll [] values).length := length_output_ge (by simp)
      rw [List.nil_append] at hlater
      rw [output_of_overflow (by omega), List.length_append, List.length_append,
        List.length_append, length_maskAll,
        Lines.length_eachLine_append length_maskAll hline hmore]
      omega

/-! ## The law -/

theorem linesWait_iff (values : List Text) : LinesWait values ↔ LinesWaitFrom [] values := by
  constructor
  · rintro h value before after rfl hafter
    exact h (value :: before) after rfl hafter
  · intro h before after hvalues hafter
    cases before with
    | nil => simp [Lines.remainder_of_not_mem]
    | cons value before => exact h value before after hvalues hafter

/-- **The output is the masked text in chunks, however lines are masked, exactly if no text is fed
after a line that has outgrown a chunk.** -/
theorem redaction_ignores_framing_iff (values : List Text) :
    (∀ redactLogLine : Text → Text,
      let chunks := StreamingOutputRedactor.emitted redactLogLine {} values
      chunks.flatten = Lines.eachLine newline redactLogLine values.flatten ∧
        ∀ chunk ∈ chunks, FitsTerminalOutput chunk) ↔ LinesWait values := by
  rw [linesWait_iff]
  constructor
  · intro h
    by_contra hcut
    have hmore := length_output_gt (by simp) hcut
    rw [List.nil_append] at hmore
    exact absurd (congrArg List.length (h maskAll).1) (Nat.ne_of_gt hmore)
  · intro h redactLogLine
    refine ⟨?_, fun chunk hchunk => fits_of_mem_emitted hchunk⟩
    have hsame := output_of_linesWait redactLogLine (by simp) h
    rwa [List.nil_append] at hsame

/-- A masking of the lines that begin with a token. -/
def maskToken (line : Text) : Text :=
  if "token=".toList.isPrefixOf line then "[REDACTED]".toList else line

/-- A token that outgrows a chunk. -/
def longToken : Text := "token=".toList ++ List.replicate 8192 'a'

theorem newline_not_mem_longToken : newline ∉ longToken := by
  intro h
  rcases List.mem_append.mp h with h | h
  · exact absurd h (by decide)
  · exact absurd (List.mem_replicate.mp h).2 (by decide)

theorem length_longToken : longToken.length = "token=".toList.length + 8192 := by
  delta longToken
  rw [List.length_append, List.length_replicate]

/-- The end of the token is emitted as it is, although the mask hides its whole line. -/
theorem token_emitted_in_pieces :
    let values := [longToken, "bc\n".toList]
    let chunks := StreamingOutputRedactor.emitted maskToken {} values
    chunks.flatten = "[REDACTED]bc\n".toList ∧
      Lines.eachLine newline maskToken values.flatten = "[REDACTED]\n".toList ∧
      chunks.flatten ≠ Lines.eachLine newline maskToken values.flatten := by
  have hlength : maxTerminalOutputChunkLength <
      (Lines.remainder newline ([] ++ longToken)).length := by
    have hremainder : Lines.remainder newline ([] ++ longToken) = longToken :=
      Lines.remainder_of_not_mem newline_not_mem_longToken
    rw [hremainder, length_longToken]
    exact Nat.lt_add_of_pos_left (by decide)
  have hline : newline ∉ longToken ++ "bc".toList := fun h =>
    (List.mem_append.mp h).elim newline_not_mem_longToken (by decide)
  have hmask : ∀ rest : Text, maskToken (longToken ++ rest) = "[REDACTED]".toList := fun rest => rfl
  have hend : output maskToken [] ["bc\n".toList] = "bc\n".toList := by
    have hwait : LinesWaitFrom [] ["bc\n".toList] := linesWaitFrom_cons (by simp)
      (linesWaitFrom_of_flatten_nil rfl _)
    rw [output_of_linesWait maskToken (by simp) hwait]
    decide
  have hemitted : output maskToken [] [longToken, "bc\n".toList] = "[REDACTED]bc\n".toList := by
    have hwhole : maskToken longToken = "[REDACTED]".toList := rfl
    rw [output_of_overflow hlength, hend, List.nil_append,
      Lines.remainder_of_not_mem newline_not_mem_longToken,
      Lines.completed_of_not_mem newline_not_mem_longToken, hwhole]
    rfl
  have hmasked : Lines.eachLine newline maskToken [longToken, "bc\n".toList].flatten =
      "[REDACTED]\n".toList := by
    have hwhole : [longToken, "bc\n".toList].flatten = (longToken ++ "bc".toList) ++ [newline] := by
      simp [newline]
    rw [hwhole, Lines.eachLine_line hline, hmask]
    decide
  refine ⟨hemitted, hmasked, fun hsame => ?_⟩
  rw [hmasked] at hsame
  exact absurd (hemitted.symm.trans hsame) (by decide)

end Opsia.Terminal
