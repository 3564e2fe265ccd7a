import Mathlib.Algebra.GroupWithZero.Nat
import Mathlib.Algebra.Ring.Int.Defs
import Orchestrator.Engine.Framing
import Orchestrator.Lib.Lines

/-!
# `Orchestrator.Proofs.Framing`: the lines that reach the engine

`scanLoop_spec` says what a scanner returns in terms of the bytes it holds and those to come: the
chunks do not matter. So the pump sees the lines of all bytes the first scanner has left behind
(`pumpLines_eq`). What that one has taken depends on the chunks, and `scanLoop_readAhead` says
exactly when it stops at the end of its line.

The engine reads its input with two scanners, one after the other. The first is made for the start
message, with the buffer of 64 KiB that a scanner has by default, and the second for the rest, with
a buffer of up to 4 MB. A scanner reads as much as its buffer has room for, so the first one may
hold bytes behind its line when it is given up, and they are lost.

`framing_iff` has the three conditions under which the first line is returned and all the others are
handled, complete and in order: the first line fits, a read ends with it, and every other line is
short enough. They are exact for every way in which the bytes may come in chunks. The direction from
the result to the conditions rests on `handledLines_suffix`: whoever has lost bytes at the
beginning, or meets a line that is too long, sees other lines.

`Scans` lists the results of a scan as a relation between the bytes before and after it, and the
buffer only matters for the sizes. The growth of the buffer has an invariant of its own
(`Scanner.Growing`).
-/

set_option autoImplicit false

namespace Orchestrator.Proofs

open Orchestrator.Lib Orchestrator.Engine

/-! ### Reads -/

/-- A number of reads, each of a whole chunk, takes exactly `q` bytes. -/
def endsAt : List (List UInt8) → Nat → Prop
  | [], q => q = 0
  | c :: cs, q => q = 0 ∨ (c.length ≤ q ∧ endsAt cs (q - c.length))

/-- No read takes no bytes. -/
theorem endsAt_zero (cs : List (List UInt8)) : endsAt cs 0 := by
  cases cs with
  | nil => rfl
  | cons c cs => exact Or.inl rfl

/-- At the end of the input there are no bytes. -/
theorem Reader.bytes_of_read_none {r : Reader} {room : Nat} (h : r.read room = none) :
    r.bytes = [] := by
  obtain ⟨chunks, hne⟩ := r
  cases chunks with
  | nil => rfl
  | cons c cs =>
      simp only [Reader.read] at h
      split at h <;> cases h

/-- What a read returns, and how the ends of the chunks lie behind it. -/
structure Reads (r : Reader) (room : Nat) (bs : List UInt8) (r' : Reader) : Prop where
  pos : 0 < bs.length
  fits : bs.length ≤ room
  bytes : r.bytes = bs ++ r'.bytes
  later : ∀ q, bs.length < q → (endsAt r.chunks q ↔ endsAt r'.chunks (q - bs.length))
  within : ∀ q, 0 < q → q < bs.length → ¬ endsAt r.chunks q
  stop : endsAt r.chunks bs.length ∨ bs.length = room

/-- The specification of `read`: it returns bytes from the front of what is left, at most as many as
there is room for, and something unless the input has ended. -/
theorem Reader.reads {r r' : Reader} {room : Nat} {bs : List UInt8} (hroom : 0 < room)
    (h : r.read room = some (bs, r')) : Reads r room bs r' := by
  obtain ⟨chunks, hne⟩ := r
  cases chunks with
  | nil => cases h
  | cons c cs =>
      have hc : 0 < c.length := List.length_pos_iff.mpr fun hn => hne (hn ▸ List.mem_cons_self)
      simp only [Reader.read] at h
      split at h
      · rename_i hle
        cases h
        refine ⟨hc, hle, rfl, fun q hq => ?_, fun q hpos hq => ?_, Or.inl (Or.inr ⟨le_rfl, ?_⟩)⟩
        · have hq0 : q ≠ 0 := by omega
          simp [endsAt, hq0, hq.le]
        · rintro (h0 | ⟨hle', -⟩) <;> omega
        · rw [Nat.sub_self]
          exact endsAt_zero cs
      · rename_i hlt
        cases h
        have hlen : (c.take room).length = room := by
          rw [List.length_take]
          omega
        refine ⟨by omega, hlen.le, ?_, fun q hq => ?_, fun q hpos hq => ?_, Or.inr hlen⟩
        · show (c :: cs).flatten = c.take room ++ (c.drop room :: cs).flatten
          rw [List.flatten_cons, List.flatten_cons, ← List.append_assoc, List.take_append_drop]
        · -- The rest of the chunk ends where the chunk does.
          rw [hlen] at hq ⊢
          show (q = 0 ∨ (c.length ≤ q ∧ endsAt cs (q - c.length))) ↔
            (q - room = 0 ∨ ((c.drop room).length ≤ q - room ∧
              endsAt cs (q - room - (c.drop room).length)))
          rw [List.length_drop]
          have hsub : q - room - (c.length - room) = q - c.length := by omega
          have hle : c.length - room ≤ q - room ↔ c.length ≤ q := by omega
          have hq0 : ¬ q = 0 := by omega
          have hqr : ¬ q - room = 0 := by omega
          rw [hsub, hle]
          simp only [hq0, hqr, false_or]
        · rw [hlen] at hq
          rintro (h0 | ⟨hle', -⟩) <;> omega

/-! ### `ScanLines` -/

/-- A line of `ScanLines`, and how the data are made up of it and of what follows. -/
theorem scanLines_some {data line : List UInt8} {atEOF : Bool} {n : Nat}
    (h : scanLines data atEOF = some (n, line)) :
    (∃ l rest, data = l ++ newline :: rest ∧ newline ∉ l ∧ n = l.length + 1 ∧ line = dropCR l) ∨
      (newline ∉ data ∧ atEOF = true ∧ data ≠ [] ∧ n = data.length ∧ line = dropCR data) := by
  -- The data have a newline, and the line ends at the first one, or the input has ended and they
  -- are the last line.
  unfold scanLines at h
  split at h
  · rename_i i hi
    left
    cases h
    obtain ⟨hlt, hget, hbefore⟩ := List.idxOf?_eq_some_iff.mp hi
    refine ⟨data.take i, data.drop (i + 1), ?_, fun hm => ?_, ?_, rfl⟩
    · rw [← hget, List.cons_getElem_drop_succ, List.take_append_drop]
    · obtain ⟨j, hj, hget'⟩ := List.mem_iff_getElem.mp hm
      rw [List.length_take] at hj
      rw [List.getElem_take] at hget'
      exact hbefore j (by omega) hget'
    · rw [List.length_take, Nat.min_eq_left hlt.le]
  · rename_i hnone
    right
    obtain ⟨hcond, h⟩ := Option.ite_none_right_eq_some.mp h
    cases h
    rw [Bool.and_eq_true, Bool.not_eq_true', List.isEmpty_eq_false_iff] at hcond
    exact ⟨List.idxOf?_eq_none_iff.mp hnone, hcond.1, hcond.2, rfl, rfl⟩

/-- `ScanLines` asks for more. -/
theorem scanLines_none {data : List UInt8} {atEOF : Bool} (h : scanLines data atEOF = none) :
    newline ∉ data ∧ (atEOF = true → data = []) := by
  unfold scanLines at h
  split at h
  · cases h
  · rename_i hnone
    refine ⟨List.idxOf?_eq_none_iff.mp hnone, fun heof => ?_⟩
    simpa [heof] using h

/-! ### What a scanner returns -/

/-- The buffer has room for what it holds, and its end of the input is the reader's. -/
structure Scanner.Ok (s : Scanner) (r : Reader) : Prop where
  fits : s.dataEnd ≤ s.size
  size_le : s.size ≤ s.maxTokenSize
  pos : 0 < s.maxTokenSize
  err : s.err = none ∨
    (s.err = some .eof ∧ r.bytes = [] ∧ s.data.length < s.maxTokenSize)

/-- The results of a scan of the bytes `d`, those that the scanner holds and those to come. -/
inductive Scans (max : Nat) (d : List UInt8) : Option (List UInt8) × Scanner × Reader → Prop
  | line (l rest : List UInt8) (s : Scanner) (r : Reader) (hd : d = l ++ newline :: rest)
      (hl : newline ∉ l) (hlen : l.length < max) (hrest : s.data ++ r.bytes = rest)
      (hok : Scanner.Ok s r) (hmax : s.maxTokenSize = max) : Scans max d (some (dropCR l), s, r)
  | last (s : Scanner) (r : Reader) (hl : newline ∉ d) (hne : d ≠ []) (hlen : d.length < max)
      (hrest : s.data ++ r.bytes = []) (hok : Scanner.Ok s r) (hmax : s.maxTokenSize = max) :
      Scans max d (some (dropCR d), s, r)
  | stop (s : Scanner) (r : Reader)
      (h : d = [] ∨ ∃ l rest, d = l ++ rest ∧ newline ∉ l ∧ max ≤ l.length) :
      Scans max d (none, s, r)

/-- `shift` moves the data only. -/
theorem Scanner.shift_spec (s : Scanner) : s.shift.data = s.data ∧ s.shift.size = s.size ∧
    s.shift.maxTokenSize = s.maxTokenSize ∧ s.shift.err = s.err ∧
    s.shift.dataEnd ≤ s.dataEnd ∧ (s.shift.dataEnd = s.size → s.shift.start = 0) := by
  unfold Scanner.shift
  split
  · exact ⟨rfl, rfl, rfl, rfl, by simp [Scanner.dataEnd], fun _ => rfl⟩
  · rename_i h
    refine ⟨rfl, rfl, rfl, rfl, le_rfl, fun hend => ?_⟩
    by_contra hne
    exact h ⟨Nat.pos_of_ne_zero hne, Or.inl hend⟩

/-- A buffer that does not grow is full at its greatest size. -/
theorem Scanner.grow_none {s : Scanner} (h : s.grow = none) :
    s.dataEnd = s.size ∧ s.maxTokenSize ≤ s.size := by
  unfold Scanner.grow at h
  split at h
  · rename_i hend
    split at h
    · rename_i hmax
      exact ⟨hend, hmax⟩
    · cases h
  · cases h

/-- A buffer that has grown has room, and holds what it held. So the next read can put something
into it. -/
theorem Scanner.grow_some {s s' : Scanner} (hfits : s.dataEnd ≤ s.size)
    (hsize : s.size ≤ s.maxTokenSize) (h : s.grow = some s') :
    s'.data = s.data ∧ s'.maxTokenSize = s.maxTokenSize ∧ s'.err = s.err ∧
      s'.dataEnd < s'.size ∧ s'.size ≤ s'.maxTokenSize := by
  -- A full buffer is doubled, up to its greatest size. One that is not full stays as it is.
  unfold Scanner.grow at h
  split at h
  · rename_i hend
    split at h
    · cases h
    · rename_i hmax
      cases h
      have hdata : s.data.length ≤ s.size := by
        have : s.start + s.data.length = s.size := hend
        omega
      refine ⟨rfl, rfl, rfl, ?_, Nat.min_le_right _ _⟩
      show 0 + s.data.length < min (if s.size = 0 then startBufSize else s.size * 2) s.maxTokenSize
      rw [Nat.lt_min]
      constructor
      · split
        · simp only [startBufSize]
          omega
        · omega
      · omega
  · rename_i hend
    cases h
    exact ⟨rfl, rfl, rfl, by omega, hsize⟩

/-- What a scan returns depends on the bytes alone. How the input is cut into chunks decides how
often the loop reads and how large the buffer becomes, and neither shows in the result. -/
theorem scanLoop_spec (fuel : Nat) (s : Scanner) (r : Reader) (hok : Scanner.Ok s r)
    (hfuel : r.bytes.length + (if s.err.isSome then 0 else 1) < fuel) :
    Scans s.maxTokenSize (s.data ++ r.bytes) (s.scanLoop fuel r) := by
  induction fuel generalizing s r with
  | zero => omega
  | succ fuel ih =>
      unfold Scanner.scanLoop
      split
      · rename_i n line hscan
        have hfits : s.start + s.data.length ≤ s.size := hok.fits
        -- A whole line is in the buffer, or the input has ended behind the last one.
        rcases scanLines_some hscan with ⟨l, rest, hdata, hl, rfl, rfl⟩ |
          ⟨hl, heof, hne, rfl, rfl⟩
        · have hlen : s.data.length = l.length + (rest.length + 1) := by
            rw [hdata, List.length_append, List.length_cons]
          have hsize := hok.size_le
          have hdrop : s.data.drop (l.length + 1) = rest := by simp [hdata]
          refine .line l (rest ++ r.bytes) _ _ (by simp [hdata]) hl (by omega) (by simp [hdrop])
            ⟨?_, hok.size_le, hok.pos, ?_⟩ rfl
          · show s.start + (l.length + 1) + (s.data.drop (l.length + 1)).length ≤ s.size
            rw [hdrop]
            omega
          · rcases hok.err with herr | ⟨herr, hbytes, hlt⟩
            · exact Or.inl herr
            · refine Or.inr ⟨herr, hbytes, ?_⟩
              show (s.data.drop (l.length + 1)).length < s.maxTokenSize
              rw [hdrop]
              omega
        · rcases hok.err with herr | ⟨herr, hbytes, hlt⟩
          · rw [herr] at heof
            cases heof
          · rw [hbytes, List.append_nil]
            refine .last _ _ hl hne hlt (by simp [hbytes]) ⟨?_, hok.size_le, hok.pos, ?_⟩ rfl
            · show s.start + s.data.length + (s.data.drop s.data.length).length ≤ s.size
              simpa using hfits
            · exact Or.inr ⟨herr, hbytes, by simpa using hok.pos⟩
      · rename_i hscan
        obtain ⟨hl, hdone⟩ := scanLines_none hscan
        rcases hok.err with herr | ⟨herr, hbytes, -⟩
        · obtain ⟨hdata, hsize, hmax, herr', hend, hstart⟩ := Scanner.shift_spec s
          have hfits : s.shift.dataEnd ≤ s.shift.size := by
            rw [hsize]
            exact hend.trans hok.fits
          simp only [herr, Option.isSome_none, Bool.false_eq_true, if_false]
          simp only [herr, Option.isSome_none, Bool.false_eq_true, if_false] at hfuel
          split
          · -- The buffer is full of one line.
            rename_i hgrow
            obtain ⟨hfull, hle⟩ := Scanner.grow_none hgrow
            rw [hsize] at hfull hle
            have hzero := hstart hfull
            refine .stop _ _ (Or.inr ⟨s.data, r.bytes, rfl, hl, ?_⟩)
            have hlen : s.shift.start + s.shift.data.length = s.size := hfull
            rw [hzero, hdata] at hlen
            rw [hmax] at hle
            omega
          · rename_i s₂ hgrow
            obtain ⟨hdata₂, hmax₂, herr₂, hroom, hsize₂⟩ :=
              Scanner.grow_some hfits (by rw [hsize, hmax]; exact hok.size_le) hgrow
            rw [hdata] at hdata₂
            rw [hmax] at hmax₂
            rw [herr', herr] at herr₂
            have hend₂ : s₂.dataEnd = s₂.start + s₂.data.length := rfl
            have hpos : 0 < s₂.maxTokenSize := hmax₂ ▸ hok.pos
            split
            · rename_i hread
              have hbytes := Reader.bytes_of_read_none hread
              -- At the end of the input the next round looks at what is left.
              have hstep := ih { s₂ with err := some .eof } r
                ⟨hroom.le, hsize₂, hpos,
                  Or.inr ⟨rfl, hbytes, by show s₂.data.length < s₂.maxTokenSize; omega⟩⟩
                (by simp only [Option.isSome_some, if_true]; omega)
              rw [← hdata₂, ← hmax₂]
              exact hstep
            · rename_i bs r' hread
              -- A read leaves fewer bytes to come, and the fuel counts them.
              have hreads := Reader.reads (by omega) hread
              have hbs := hreads.pos
              have hbsroom := hreads.fits
              have hlen : r.bytes.length = bs.length + r'.bytes.length := by
                rw [hreads.bytes, List.length_append]
              have hend₃ : s₂.start + (s₂.data ++ bs).length ≤ s₂.size := by
                rw [List.length_append]
                omega
              have hstep := ih { s₂ with data := s₂.data ++ bs } r'
                ⟨hend₃, hsize₂, hpos, Or.inl herr₂⟩
                (by simp only [herr₂, Option.isSome_none, Bool.false_eq_true, if_false]; omega)
              rw [hreads.bytes, ← hdata₂, ← hmax₂, ← List.append_assoc]
              exact hstep
        · -- The input has ended and all lines were returned.
          have hnil : s.data = [] := hdone (by simp [herr])
          simp only [herr, Option.isSome_some, if_true]
          exact .stop _ _ (Or.inl (by simp [hnil, hbytes]))

/-- The specification of `scan`. -/
theorem scan_spec {s : Scanner} {r : Reader} (hok : Scanner.Ok s r) :
    Scans s.maxTokenSize (s.data ++ r.bytes) (s.scan r) :=
  scanLoop_spec _ s r hok (by split <;> omega)

/-! ### The lines of the pump -/

/-- The lines of a stream that are handled, with room for a line and its end. -/
def handledLines (limit : Nat) (d : List UInt8) : List (List UInt8) :=
  ((boundedLines newline limit d).map dropCR).filter (fun l => !l.isEmpty)

/-- The lines of a stream, one after the other: a line that is too long ends them, and an empty one
is passed over. -/
theorem handledLines_append_cons {limit : Nat} {l : List UInt8} (hl : newline ∉ l)
    (d : List UInt8) : handledLines limit (l ++ newline :: d)
      = if l.length < limit then
          (if dropCR l = [] then handledLines limit d else dropCR l :: handledLines limit d)
        else [] := by
  unfold handledLines
  rw [boundedLines_append_cons hl]
  split
  · rw [List.map_cons, List.filter_cons]
    by_cases hnil : dropCR l = []
    · simp [hnil]
    · simp [hnil]
  · rfl

/-- Without bytes there are no lines. -/
theorem handledLines_nil (limit : Nat) : handledLines limit [] = [] := by
  unfold handledLines
  rw [boundedLines_of_not_mem List.not_mem_nil]
  split <;> simp [dropCR]

/-- The lines do not depend on the chunks. They are those of the bytes, up to the first one that is
too long. -/
theorem restLines_eq (fuel : Nat) (s : Scanner) (r : Reader) (hok : Scanner.Ok s r)
    (hfuel : (s.data ++ r.bytes).length < fuel) :
    s.restLines fuel r = handledLines s.maxTokenSize (s.data ++ r.bytes) := by
  induction fuel generalizing s r with
  | zero => omega
  | succ fuel ih =>
      have hspec := scan_spec hok
      unfold Scanner.restLines
      generalize s.scan r = res at hspec
      generalize s.data ++ r.bytes = d at hspec hfuel
      cases hspec with
      -- A whole line within the limit. One pass is spent on it, and the induction hypothesis reads
      -- what follows.
      | line l rest s' r' hd hl hlen hrest hok' hmax =>
          rw [hd, List.length_append, List.length_cons] at hfuel
          have htail := ih s' r' hok' (by rw [hrest]; omega)
          rw [hd, handledLines_append_cons hl, if_pos hlen, ← hrest, ← hmax, ← htail]
      -- The input ended without a newline: the remainder is the last line, and it is handled only
      -- if it is not empty.
      | last s' r' hl hne hlen hrest hok' hmax =>
          have hpos : 0 < d.length := List.length_pos_iff.mpr hne
          have htail := ih s' r' hok' (by rw [hrest, List.length_nil]; omega)
          rw [hrest, handledLines_nil] at htail
          simp only [htail]
          unfold handledLines
          rw [boundedLines_of_not_mem hl, if_pos hlen]
          by_cases hnil : dropCR d = []
          · simp [hnil]
          · simp [hnil]
      -- The scanner stops at the end of the input or at a line over the limit, and it handles
      -- nothing more in either case.
      | stop s' r' h =>
          rcases h with rfl | ⟨l, rest, rfl, hl, hlen⟩
          · exact (handledLines_nil _).symm
          · unfold handledLines
            rw [boundedLines_of_long hl hlen]
            rfl

/-- The pump handles the lines of the bytes that are left. -/
theorem pumpLines_eq (r : Reader) : pumpLines r = handledLines maxLine r.bytes :=
  restLines_eq _ (.withBuffer maxLine) r
    ⟨Nat.zero_le _, le_rfl, by simp [Scanner.withBuffer, maxLine], Or.inl rfl⟩ (by
      show (([] : List UInt8) ++ r.bytes).length < _
      simp)

/-! ### The read-ahead of the first scanner -/

/-- The buffer of a scanner with no line behind it: new, or as large as the last growth made it. -/
structure Scanner.Growing (s : Scanner) : Prop where
  start : s.start = 0
  fits : s.data.length ≤ s.size
  size : s.size = 0 ∨
    ∃ k, k ≤ 4 ∧ s.size = startBufSize * 2 ^ k ∧ (k = 0 ∨ s.size ≤ 2 * s.data.length)

/-- A full buffer grows to the next size. The sizes are the startup size and its doublings, until
the limit cuts them off. -/
theorem Scanner.Growing.next_size {s : Scanner} (h : Scanner.Growing s)
    (hfull : s.data.length = s.size) (hlen : s.size < Launch.maxScanTokenSize) :
    ∃ k, k ≤ 4 ∧ min (if s.size = 0 then startBufSize else s.size * 2) Launch.maxScanTokenSize
        = startBufSize * 2 ^ k ∧
      (k = 0 ∨ startBufSize * 2 ^ k ≤ 2 * s.data.length) ∧
      s.data.length < startBufSize * 2 ^ k := by
  simp only [Launch.maxScanTokenSize] at hlen
  simp only [Launch.maxScanTokenSize, startBufSize]
  rcases h.size with hzero | ⟨k, hk, hsize, -⟩
  · exact ⟨0, by omega, by simp [hzero], Or.inl rfl, by omega⟩
  · simp only [startBufSize] at hsize
    -- The fourth doubling reaches the limit, so a full buffer below the limit has seen three at
    -- most.
    have hk3 : k ≤ 3 := by
      by_contra hk3
      have hk4 : k = 4 := by omega
      subst hk4
      omega
    have hle : 2 ^ k ≤ 2 ^ 3 := Nat.pow_le_pow_right (by omega) hk3
    have hpos : 0 < 2 ^ k := Nat.pow_pos (by omega)
    have hsucc : 4096 * 2 ^ (k + 1) = 2 * (4096 * 2 ^ k) := by
      rw [pow_succ]
      omega
    refine ⟨k + 1, by omega, ?_, Or.inr (by omega), by omega⟩
    rw [if_neg (by omega), hsucc, hsize]
    omega

/-- A growing buffer has room for more while it holds less than the greatest line. -/
theorem Scanner.Growing.grow {s : Scanner} (h : Scanner.Growing s)
    (hmax : s.maxTokenSize = Launch.maxScanTokenSize)
    (hlen : s.data.length < Launch.maxScanTokenSize) :
    ∃ s₂, s.shift.grow = some s₂ ∧ Scanner.Growing s₂ ∧ s₂.data = s.data ∧ s₂.err = s.err ∧
      s₂.maxTokenSize = s.maxTokenSize ∧ s.data.length < s₂.size := by
  have hstart := h.start
  have hshift : s.shift = s := by simp [Scanner.shift, hstart]
  have hend : s.dataEnd = s.data.length := by simp [Scanner.dataEnd, hstart]
  have hfits := h.fits
  rw [hshift]
  unfold Scanner.grow
  rw [hend, hmax]
  -- Only a full buffer is replaced by one of twice the size.
  by_cases hfull : s.data.length = s.size
  · rw [if_pos hfull, if_neg (by omega)]
    obtain ⟨k, hk, hsize, hhalf, hroom⟩ := h.next_size hfull (by omega)
    refine ⟨_, rfl, ⟨rfl, ?_, Or.inr ⟨k, hk, hsize, ?_⟩⟩, rfl, rfl, rfl, ?_⟩
    · rw [hsize]
      exact hroom.le
    · rw [hsize]
      exact hhalf
    · rw [hsize]
      exact hroom
  · rw [if_neg hfull]
    exact ⟨s, rfl, h, rfl, rfl, hmax, by omega⟩

/-- The first separator of a stream is where its first line ends. -/
theorem first_line_length {l l' rest rest' : List UInt8} (hl : newline ∉ l) (hl' : newline ∉ l')
    (h : l ++ newline :: rest = l' ++ newline :: rest') : l.length = l'.length := by
  have hidx := congrArg (List.idxOf newline) h
  rwa [List.idxOf_append_of_notMem hl, List.idxOf_append_of_notMem hl', List.idxOf_cons_self,
    List.idxOf_cons_self, Nat.add_zero, Nat.add_zero] at hidx

/-- A scan that finds a line in the buffer holds nothing more when the line is all there is. -/
theorem scanLoop_of_line {fuel : Nat} {s : Scanner} {r : Reader} {l tail : List UInt8}
    (hd : s.data ++ r.bytes = l ++ newline :: tail) (hl : newline ∉ l)
    (hlen : l.length < s.data.length) (hfuel : 0 < fuel) :
    (s.scanLoop fuel r).2.1.data = [] ↔ s.data.length = l.length + 1 := by
  obtain ⟨fuel, rfl⟩ := Nat.exists_eq_succ_of_ne_zero hfuel.ne'
  -- The whole line is in the buffer already, so the first pass splits it off and reads nothing
  -- more.
  have hmem : newline ∈ s.data := by
    have hget : (s.data ++ r.bytes)[l.length]? = some newline := by simp [hd]
    rw [List.getElem?_append_left hlen] at hget
    exact List.mem_of_getElem? hget
  unfold Scanner.scanLoop
  split
  · rename_i n line hscan
    rcases scanLines_some hscan with ⟨l', rest, hdata, hl', rfl, rfl⟩ | ⟨hnot, -⟩
    · have heq : l'.length = l.length := by
        rw [hdata, List.append_assoc, List.cons_append] at hd
        exact first_line_length hl' hl hd
      show s.data.drop (l'.length + 1) = [] ↔ _
      rw [List.drop_eq_nil_iff]
      omega
    · exact absurd hmem hnot
  · rename_i hscan
    exact absurd hmem (scanLines_none hscan).1

/-- The first scanner takes nothing behind its line exactly when a read ends there: at the end of
a chunk, or because the buffer is full. -/
theorem scanLoop_readAhead (fuel : Nat) (s : Scanner) (r : Reader) (hgrowing : Scanner.Growing s)
    (herr : s.err = none) (hmax : s.maxTokenSize = Launch.maxScanTokenSize) {l tail : List UInt8}
    (hd : s.data ++ r.bytes = l ++ newline :: tail) (hl : newline ∉ l)
    (hn : s.data.length ≤ l.length) (hlen : l.length < Launch.maxScanTokenSize)
    (hfuel : r.bytes.length + 1 < fuel) :
    (s.scanLoop fuel r).2.1.data = [] ↔
      endsAt r.chunks (l.length + 1 - s.data.length) ∨
        ∃ k, k ≤ 4 ∧ l.length + 1 = startBufSize * 2 ^ k := by
  induction fuel generalizing s r with
  | zero => omega
  | succ fuel ih =>
      have htotal : s.data.length + r.bytes.length = l.length + (tail.length + 1) := by
        rw [← List.length_append, hd, List.length_append, List.length_cons]
      -- The buffer holds a part of the line, so no line is returned yet.
      have hnot : newline ∉ s.data := by
        intro hm
        have hmem : s.data = l.take s.data.length := by
          have htake := congrArg (List.take s.data.length) hd
          rwa [List.take_left', List.take_append_of_le_length hn] at htake
          rfl
        rw [hmem] at hm
        exact hl (List.mem_of_mem_take hm)
      have hscan : scanLines s.data s.err.isSome = none := by
        unfold scanLines
        rw [List.idxOf?_eq_none_iff.mpr hnot, herr]
        rfl
      obtain ⟨s₂, hgrow, hgrowing₂, hdata₂, herr₂, hmax₂, hroom⟩ := hgrowing.grow hmax (by omega)
      have hend₂ : s₂.dataEnd = s.data.length := by
        simp [Scanner.dataEnd, hgrowing₂.start, hdata₂]
      cases hread : r.read (s₂.size - s₂.dataEnd) with
      | none =>
          have hbytes := Reader.bytes_of_read_none hread
          rw [hbytes, List.length_nil] at htotal
          omega
      | some res =>
          obtain ⟨bs, r'⟩ := res
          have hreads := Reader.reads (by omega) hread
          have hstep : s.scanLoop (fuel + 1) r
              = ({ s₂ with data := s₂.data ++ bs } : Scanner).scanLoop fuel r' := by
            rw [Scanner.scanLoop, hscan]
            simp only [herr, Option.isSome_none, Bool.false_eq_true, if_false, hgrow, hread]
          have hpos := hreads.pos
          have hfits := hreads.fits
          have hbytes : r.bytes.length = bs.length + r'.bytes.length := by
            rw [hreads.bytes, List.length_append]
          have hlen₂ : (s₂.data ++ bs).length = s.data.length + bs.length := by
            rw [List.length_append, hdata₂]
          have hd₂ : s₂.data ++ bs ++ r'.bytes = l ++ newline :: tail := by
            rw [← hd, hreads.bytes, hdata₂, List.append_assoc]
          rw [hstep]
          by_cases hmore : s.data.length + bs.length ≤ l.length
          · -- The line has not ended yet.
            have hgrowing₃ : Scanner.Growing { s₂ with data := s₂.data ++ bs } := by
              refine ⟨hgrowing₂.start, by show (s₂.data ++ bs).length ≤ s₂.size; omega, ?_⟩
              rcases hgrowing₂.size with hzero | ⟨k, hk, hsize, hhalf⟩
              · exact Or.inl hzero
              · refine Or.inr ⟨k, hk, hsize, hhalf.imp_right fun hle => ?_⟩
                show s₂.size ≤ 2 * (s₂.data ++ bs).length
                rw [hdata₂] at hle
                omega
            have hih := ih { s₂ with data := s₂.data ++ bs } r' hgrowing₃ (herr₂.trans herr)
              (hmax₂.trans hmax) hd₂ (by show (s₂.data ++ bs).length ≤ _; omega) (by omega)
            rw [hih, hreads.later _ (by omega)]
            show endsAt r'.chunks (l.length + 1 - (s₂.data ++ bs).length) ∨ _ ↔ _
            rw [hlen₂, Nat.sub_sub]
          · -- The read reached the end of the line, and the line is returned.
            rw [scanLoop_of_line hd₂ hl (by show _ < (s₂.data ++ bs).length; omega) (by omega)]
            show (s₂.data ++ bs).length = l.length + 1 ↔ _
            rw [hlen₂]
            constructor
            · intro heq
              rcases hreads.stop with hstop | hstop
              · left
                rwa [show l.length + 1 - s.data.length = bs.length by omega]
              · right
                rcases hgrowing₂.size with hzero | ⟨k, hk, hsize, -⟩
                · omega
                · exact ⟨k, hk, by omega⟩
            · intro hstop
              by_contra hne
              rcases hstop with hstop | ⟨k, hk, hsize⟩
              · exact hreads.within _ (by omega) (by omega) hstop
              · -- The buffer grew to its size only when half of it was full.
                rcases hgrowing₂.size with hzero | ⟨k₂, hk₂, hsize₂, hhalf⟩
                · omega
                · have hlt : k < k₂ := by
                    by_contra hge
                    have hle : 2 ^ k₂ ≤ 2 ^ k := Nat.pow_le_pow_right (by omega) (by omega)
                    simp only [startBufSize] at hsize hsize₂
                    omega
                  have hle : 2 ^ (k + 1) ≤ 2 ^ k₂ := Nat.pow_le_pow_right (by omega) (by omega)
                  rw [pow_succ] at hle
                  rw [hdata₂] at hhalf
                  simp only [startBufSize] at hsize hsize₂
                  omega

/-! ### Both readers in turn -/

/-- A line of a client: no newline in it, and more than its end. -/
def IsLine (l : List UInt8) : Prop := newline ∉ l ∧ dropCR l ≠ []

instance (l : List UInt8) : Decidable (IsLine l) := inferInstanceAs (Decidable (_ ∧ _))

/-- Some read ends with the first `n` bytes: a chunk ends there, or the buffer of the first scanner
is full. -/
def ReadEndsAt (r : Reader) (n : Nat) : Prop :=
  endsAt r.chunks n ∨ ∃ k, k ≤ 4 ∧ n = startBufSize * 2 ^ k

/-- A line that fits is read, with some bytes behind it. How many is up to the chunks, and these
bytes are lost with the scanner. -/
theorem readOne_ok {r : Reader} {first tail : List UInt8} (hfirst : IsLine first)
    (hr : r.bytes = first ++ newline :: tail) (hlen : first.length < Launch.maxScanTokenSize) :
    ∃ taken r', readOne r = (.ok (dropCR first), r') ∧ tail = taken ++ r'.bytes ∧
      (taken = [] ↔ ReadEndsAt r (first.length + 1)) := by
  have hrest : ({} : Scanner).data ++ r.bytes = first ++ newline :: tail := hr
  have hahead := scanLoop_readAhead (r.bytes.length + 2) {} r ⟨rfl, le_rfl, Or.inl rfl⟩ rfl rfl
    hrest hfirst.1 (Nat.zero_le _) hlen (by omega)
  have hspec := @scan_spec {} r
    ⟨le_rfl, Nat.zero_le _, by simp [Launch.maxScanTokenSize], Or.inl rfl⟩
  have hscan : ({} : Scanner).scan r = ({} : Scanner).scanLoop (r.bytes.length + 2) r := rfl
  rw [← hscan] at hahead
  unfold readOne Scanner.firstLine
  generalize ({} : Scanner).scan r = res at hahead hspec
  rw [List.nil_append, hr] at hspec
  generalize hd : first ++ newline :: tail = d at hspec
  cases hspec with
  | line l rest s' r' hd' hl hlen' hrest hok hmax =>
      have heq : first ++ newline :: tail = l ++ newline :: rest := hd.trans hd'
      have hsame := first_line_length hfirst.1 hl heq
      obtain ⟨rfl, hcons⟩ := List.append_inj heq hsame
      obtain rfl := (List.cons.inj hcons).2
      exact ⟨s'.data, r', by simp [hfirst.2], hrest.symm, hahead⟩
  | last s' r' hl =>
      rw [← hd] at hl
      exact absurd (by simp) hl
  | stop s' r' h =>
      exfalso
      rcases h with hnil | ⟨l, rest, hd', hl, hlong⟩
      · rw [hnil] at hd
        cases first <;> cases hd
      · -- A long line without a newline covers the first line and its end.
        have hmem : newline ∈ l := by
          have hget : (first ++ newline :: tail)[first.length]? = some newline := by simp
          rw [hd, hd', List.getElem?_append_left (hlen.trans_le hlong)] at hget
          exact List.mem_of_getElem? hget
        exact hl hmem

/-- A first line without room is not read. The engine ends then, so it handles no line at all. -/
theorem readOne_tooLong {r : Reader} {first tail : List UInt8} (hfirst : newline ∉ first)
    (hr : r.bytes = first ++ newline :: tail) (hlen : Launch.maxScanTokenSize ≤ first.length)
    (line : List UInt8) : (readOne r).1 ≠ .ok line := by
  have hspec := @scan_spec {} r
    ⟨le_rfl, Nat.zero_le _, by simp [Launch.maxScanTokenSize], Or.inl rfl⟩
  unfold readOne Scanner.firstLine
  generalize ({} : Scanner).scan r = res at hspec
  rw [List.nil_append, hr] at hspec
  generalize hd : first ++ newline :: tail = d at hspec
  -- A line that is handed out would be the first one, which is too long, and there is a newline, so
  -- it is not the last one.
  cases hspec with
  | line l rest s' r' hd' hl hlen' hrest hok hmax =>
      have hsame := first_line_length hfirst hl (hd.trans hd')
      have hlen'' : l.length < Launch.maxScanTokenSize := hlen'
      omega
  | last s' r' hl =>
      rw [← hd] at hl
      exact absurd (by simp) hl
  | stop s' r' h =>
      intro hok
      cases hok

/-- A carriage return is dropped at the end only. -/
theorem dropCR_append {a b : List UInt8} (h : b ≠ []) : dropCR (a ++ b) = a ++ dropCR b := by
  unfold dropCR
  rw [List.getLast?_append_of_ne_nil a h, List.dropLast_append_of_ne_nil h]
  split <;> rfl

/-- Lines that are all short enough are all handled. -/
theorem handledLines_terminated {limit : Nat} {ls : List (List UInt8)} (hls : ∀ l ∈ ls, IsLine l)
    (hlen : ∀ l ∈ ls, l.length < limit) :
    handledLines limit (terminated newline ls) = ls.map dropCR := by
  induction ls with
  | nil => exact handledLines_nil limit
  | cons l ls ih =>
      have hl := hls l List.mem_cons_self
      rw [terminated_cons, handledLines_append_cons hl.1, if_pos (hlen l List.mem_cons_self),
        if_neg hl.2, ih (fun x hx => hls x (List.mem_cons_of_mem l hx))
          (fun x hx => hlen x (List.mem_cons_of_mem l hx)), List.map_cons]

/-- Whoever drops bytes at the beginning, or has a line that is too long, sees other lines. -/
theorem handledLines_suffix {limit : Nat} (ls : List (List UInt8)) (hls : ∀ l ∈ ls, IsLine l)
    (taken d : List UInt8) (hd : terminated newline ls = taken ++ d) :
    (handledLines limit d).length ≤ ls.length ∧
      (handledLines limit d = ls.map dropCR → taken = [] ∧ ∀ l ∈ ls, l.length < limit) := by
  induction ls generalizing taken d with
  | nil =>
      obtain ⟨rfl, rfl⟩ := List.append_eq_nil_iff.mp hd.symm
      rw [handledLines_nil]
      exact ⟨le_rfl, fun _ => ⟨rfl, fun l hl => by cases hl⟩⟩
  | cons l ls ih =>
      have hl := hls l List.mem_cons_self
      have hls' : ∀ x ∈ ls, IsLine x := fun x hx => hls x (List.mem_cons_of_mem l hx)
      rw [terminated_cons] at hd
      -- The scanner starts inside the first line or behind it.
      have hcut : (∃ cut, l = taken ++ cut ∧ d = cut ++ newline :: terminated newline ls) ∨
          ∃ more, terminated newline ls = more ++ d := by
        rcases List.append_eq_append_iff.mp hd with ⟨a, rfl, ha⟩ | ⟨c, rfl, hc⟩
        · cases a with
          | nil => exact Or.inl ⟨[], by simp, by simpa using ha.symm⟩
          | cons b a => exact Or.inr ⟨a, (List.cons.inj ha).2⟩
        · exact Or.inl ⟨c, rfl, hc⟩
      rcases hcut with ⟨cut, rfl, rfl⟩ | ⟨more, hmore⟩
      · -- Inside: the rest of the first line is handled as a line of its own, which counts as one
        -- unless it is empty or too long.
        have hcut : newline ∉ cut := fun hm => hl.1 (List.mem_append_right _ hm)
        obtain ⟨hcount, hsame⟩ := ih hls' [] (terminated newline ls) rfl
        rw [handledLines_append_cons hcut, List.length_cons, List.map_cons]
        split
        · rename_i hlt
          split
          · refine ⟨by omega, fun heq => ?_⟩
            rw [heq, List.length_cons, List.length_map] at hcount
            omega
          · rename_i hne
            refine ⟨by rw [List.length_cons]; omega, fun heq => ?_⟩
            obtain ⟨hhead, htail⟩ := List.cons.inj heq
            have hcutne : cut ≠ [] := by
              rintro rfl
              exact hne rfl
            rw [dropCR_append hcutne] at hhead
            have hnil : taken = [] := List.append_left_eq_self.mp hhead.symm
            refine ⟨hnil, List.forall_mem_cons.mpr ⟨?_, (hsame htail).2⟩⟩
            rw [hnil]
            exact hlt
        · exact ⟨Nat.zero_le _, fun heq => by cases heq⟩
      · -- Behind: a whole line was taken, so there is at least one line too few.
        obtain ⟨hcount, -⟩ := ih hls' more d hmore
        refine ⟨by rw [List.length_cons]; omega, fun heq => ?_⟩
        rw [heq, List.length_map, List.length_cons] at hcount
        omega

/-- The first line is returned and the others are handled, complete and in order, exactly when the
first fits into 64 KB, a read ends with it, and every other is shorter than 4 MB.

Two scanners read the stream one after the other, and whatever the first has buffered behind its
line is gone. `readOne_ok` says what the first one takes, `handledLines_suffix` that the second one
handles fewer lines than were sent if anything is missing at the front. The chunks in which the
stream arrives are arbitrary. -/
theorem framing_iff (first : List UInt8) (rest : List (List UInt8))
    (hlines : ∀ l ∈ first :: rest, IsLine l) (r : Reader)
    (hr : r.bytes = terminated newline (first :: rest)) :
    handleLines r = (.ok (dropCR first), rest.map dropCR) ↔
      first.length < Launch.maxScanTokenSize ∧ ReadEndsAt r (first.length + 1) ∧
        ∀ l ∈ rest, l.length < maxLine := by
  have hfirst := hlines first List.mem_cons_self
  have hrest : ∀ l ∈ rest, IsLine l := fun l hl => hlines l (List.mem_cons_of_mem first hl)
  rw [terminated_cons] at hr
  by_cases hlen : first.length < Launch.maxScanTokenSize
  · -- What the first scanner read ahead is lost to the second, so the two agree exactly if nothing
    -- of the other lines was taken.
    obtain ⟨taken, r', hread, htail, hahead⟩ := readOne_ok hfirst hr hlen
    have hhandle : handleLines r = (.ok (dropCR first), handledLines maxLine r'.bytes) := by
      unfold handleLines
      rw [hread, pumpLines_eq]
    rw [hhandle]
    constructor
    · intro heq
      obtain ⟨hnone, hshort⟩ := (handledLines_suffix rest hrest taken r'.bytes htail).2
        (Prod.mk.inj heq).2
      exact ⟨hlen, hahead.mp hnone, hshort⟩
    · rintro ⟨-, hends, hshort⟩
      rw [hahead.mpr hends, List.nil_append] at htail
      rw [← htail, handledLines_terminated hrest hshort]
  · constructor
    · intro heq
      exact absurd (congrArg Prod.fst heq) (readOne_tooLong hfirst.1 hr (not_lt.mp hlen) _)
    · rintro ⟨hlt, -⟩
      exact absurd hlt hlen

/-- A client that waits for the answer to its first line. -/
def waitingClient : Reader := ⟨[[123, 125, 10], [91, 49, 93, 10, 91], [50, 93, 10]], by decide⟩

/-- Its lines are all handled, though a chunk ends within one. -/
theorem framing_iff_waitingClient :
    handleLines waitingClient = (.ok [123, 125], [[91, 49, 93], [91, 50, 93]]) :=
  (framing_iff [123, 125] [[91, 49, 93], [91, 50, 93]] (by decide) waitingClient rfl).mpr
    ⟨by decide, Or.inl (Or.inr ⟨by decide, Or.inl rfl⟩), by decide⟩

/-- A client that sends its second line at once. -/
def eagerClient : Reader := ⟨[[123, 125, 10, 91, 49, 93, 10]], by decide⟩

/-- The first scanner takes the second line too, and it is lost. -/
theorem framing_loses_line :
    ¬ ∀ (first : List UInt8) (rest : List (List UInt8)) (r : Reader),
      (∀ l ∈ first :: rest, IsLine l ∧ l.length ≤ maxLine) →
      r.bytes = terminated newline (first :: rest) →
      handleLines r = (.ok (dropCR first), rest.map dropCR) := by
  intro h
  have hall := h [123, 125] [[91, 49, 93]] eagerClient (by decide) rfl
  have hnone : (handleLines eagerClient).2 = [] := by decide +kernel
  rw [hall] at hnone
  cases hnone

end Orchestrator.Proofs
