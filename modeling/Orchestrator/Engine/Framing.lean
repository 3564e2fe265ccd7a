import Orchestrator.Engine.Main

/-!
# `Orchestrator.Engine.Framing`: the lines of the input

`ReadStartRun` and `PumpIncoming` each put a `bufio.Scanner` of their own over the same reader.
`Reader` is the reader with the bytes it will offer, one chunk a read, and `Scanner` follows
`bufio.Scanner` with `ScanLines`. A scanner reads as much as fits into its buffer, and what it holds
behind the line it returns is gone with it. `handleLines` is the two readers in turn.

The buffer of a scanner is its size and what it holds: it starts small, doubles up to the greatest
size, and the data moves to its beginning when there is no room behind it. A line must fit with the
byte that ends it, or with the byte that a further read would need. The first scanner has the
default limit of 64 KiB, the second one a buffer of 4 MiB.

The chunks are the choice of the peer and of the operating system, so a result about the input
quantifies over all of them. Reads of zero bytes are left out: `Scan` gives up after a hundred of
them in a row.

The fuel of each loop is enough by the lengths: a round of `scanLoop` reads a byte or ends, and
every line takes a byte or more.
-/

set_option autoImplicit false

namespace Orchestrator.Engine

/-! ### The reader -/

/-- A reader. Each chunk is offered by one read, or by several when the buffer is too small. -/
structure Reader where
  chunks : List (List UInt8)
  nonempty : [] ∉ chunks

namespace Reader

/-- The bytes that are still to come. -/
def bytes (r : Reader) : List UInt8 := r.chunks.flatten

/-- A read with room for some bytes; `none` is the end of the input. -/
def read (r : Reader) (room : Nat) : Option (List UInt8 × Reader) :=
  match r with
  | ⟨[], _⟩ => none
  | ⟨c :: cs, h⟩ =>
    if hc : c.length ≤ room then some (c, ⟨cs, fun hn => h (List.mem_cons_of_mem c hn)⟩)
    else
      some (c.take room, ⟨c.drop room :: cs, by
        rw [List.mem_cons, not_or]
        exact ⟨fun hn => hc (List.drop_eq_nil_iff.mp hn.symm),
          fun hn => h (List.mem_cons_of_mem c hn)⟩⟩)

end Reader

/-! ### `bufio.Scanner` -/

/-- The byte that ends a line. -/
def newline : UInt8 := 10

/-- The line without a carriage return at its end. -/
def dropCR (line : List UInt8) : List UInt8 :=
  if line.getLast? = some 13 then line.dropLast else line

/-- `ScanLines`: the bytes to step over and the line; `none` asks for more. At the end of the input
the rest counts as a line, even without a newline. -/
def scanLines (data : List UInt8) (atEOF : Bool) : Option (Nat × List UInt8) :=
  match data.idxOf? newline with
  | some i => some (i + 1, dropCR (data.take i))
  | none => if atEOF && !data.isEmpty then some (data.length, dropCR data) else none

/-- Why a scanner stops. Both kinds end the loop that reads lines in the same way, and only the
second one is an error to its caller. -/
inductive ScanError
  /-- The end of the input, which `Err` does not report. -/
  | eof
  | tooLong
deriving DecidableEq

/-- The size of the first buffer. -/
def startBufSize : Nat := 4096

/-- A scanner. Its buffer is given by its size and by what it holds, and where that starts. The
bytes before the start count against the size until `shift` moves them away. -/
structure Scanner where
  /-- `buf[start:end]`. -/
  data : List UInt8 := []
  start : Nat := 0
  /-- `len(buf)`. -/
  size : Nat := 0
  maxTokenSize : Nat := Launch.maxScanTokenSize
  err : Option ScanError := none

namespace Scanner

/-- `end`. -/
def dataEnd (s : Scanner) : Nat := s.start + s.data.length

/-- The data moves to the beginning of the buffer when there is a lot of empty space, or space is
needed. -/
def shift (s : Scanner) : Scanner :=
  if 0 < s.start ∧ (s.dataEnd = s.size ∨ s.size / 2 < s.start) then { s with start := 0 } else s

/-- A full buffer grows to twice its size, up to the greatest; `none` is a buffer that has its
greatest size already. The scanner then gives up on the line. -/
def grow (s : Scanner) : Option Scanner :=
  if s.dataEnd = s.size then
    if s.maxTokenSize ≤ s.size then none
    else
      some { s with
        size := min (if s.size = 0 then startBufSize else s.size * 2) s.maxTokenSize
        start := 0 }
  else some s

/-- The loop of `Scan`. It looks for a line in what it has, and reads on when there is none. The
fuel bounds the reads, and `scan_spec` says how much of it is enough. -/
def scanLoop : Nat → Scanner → Reader → Option (List UInt8) × Scanner × Reader
  | 0, s, r => (none, s, r)
  | fuel + 1, s, r =>
    match scanLines s.data s.err.isSome with
    | some (advance, token) =>
      (some token, { s with data := s.data.drop advance, start := s.start + advance }, r)
    | none =>
      if s.err.isSome then (none, { s with data := [], start := 0 }, r)
      else
        -- More is needed: room is made first, and then the reader is asked once.
        match s.shift.grow with
        | none => (none, { s.shift with err := some .tooLong }, r)
        | some s =>
          match r.read (s.size - s.dataEnd) with
          | none => scanLoop fuel { s with err := some .eof } r
          | some (bytes, r) => scanLoop fuel { s with data := s.data ++ bytes } r

/-- `Scan`; `none` is its result `false`. Each round but two reads a byte or more. -/
def scan (s : Scanner) (r : Reader) : Option (List UInt8) × Scanner × Reader :=
  scanLoop (r.bytes.length + 2) s r

/-- `Buffer` with a buffer of the greatest size. -/
def withBuffer (size : Nat) : Scanner := { size := size, maxTokenSize := size }

/-- The first line that is not empty, or why there is none. This is the loop of `ReadStartRun`, and
the buffer in which it has read ahead is given up afterwards. -/
def firstLine : Nat → Scanner → Reader → Except ScanError (List UInt8) × Reader
  | 0, _, r => (.error .eof, r)
  | fuel + 1, s, r =>
    match s.scan r with
    | (some line, s, r) => if line = [] then firstLine fuel s r else (.ok line, r)
    | (none, s, r) => (.error (s.err.getD .eof), r)

/-- The lines that are not empty, up to the end of the input or a line that is too long. -/
def restLines : Nat → Scanner → Reader → List (List UInt8)
  | 0, _, _ => []
  | fuel + 1, s, r =>
    match s.scan r with
    | (some line, s, r) =>
      if line = [] then restLines fuel s r else line :: restLines fuel s r
    | (none, _, _) => []

end Scanner

/-! ### The transport -/

/-- The line that `readOne` decodes, with the reader it leaves behind. Every line takes a byte
or more. -/
def readOne (r : Reader) : Except ScanError (List UInt8) × Reader :=
  Scanner.firstLine (r.bytes.length + 1) {} r

/-- The room for a line and its end in `PumpIncoming`. -/
def maxLine : Nat := 4 * 1024 * 1024

/-- The lines that `PumpIncoming` decodes when nothing cancels its context. -/
def pumpLines (r : Reader) : List (List UInt8) :=
  Scanner.restLines (r.bytes.length + 1) (.withBuffer maxLine) r

/-- The line of the start message, and the lines the pump handles after it. -/
def handleLines (r : Reader) : Except ScanError (List UInt8) × List (List UInt8) :=
  ((readOne r).1, pumpLines (readOne r).2)

end Orchestrator.Engine
