import LumenCopilot.Construction.Python.Text

namespace LumenCopilot.Python

/-- This is the UTF-8 encoding of one code point. -/
def utf8Char (c : Char) : List Nat :=
  let n := c.toNat
  if n < 0x80 then [n]
  else if n < 0x800 then [0xC0 + n / 64, 0x80 + n % 64]
  else if n < 0x10000 then [0xE0 + n / 4096, 0x80 + n / 64 % 64, 0x80 + n % 64]
  else [0xF0 + n / 262144, 0x80 + n / 4096 % 64, 0x80 + n / 64 % 64, 0x80 + n % 64]

/-- This is `text.encode("utf-8")`. -/
def utf8 (text : Text) : List Nat := text.flatMap utf8Char

def hexDigit (n : Nat) : Char :=
  if n < 10 then Char.ofNat (48 + n) else Char.ofNat (87 + n)

/-- These are the low hexadecimal digits of a number, most significant first. -/
def hexDigits : Nat → Nat → Text
  | 0, _ => []
  | width + 1, n => hexDigits width (n / 16) ++ [hexDigit (n % 16)]

namespace Sha256

/-- These are the round constants of SHA-256. -/
def roundConstants : List Nat :=
  [0x428a2f98, 0x71374491, 0xb5c0fbcf, 0xe9b5dba5, 0x3956c25b, 0x59f111f1, 0x923f82a4, 0xab1c5ed5,
    0xd807aa98, 0x12835b01, 0x243185be, 0x550c7dc3, 0x72be5d74, 0x80deb1fe, 0x9bdc06a7, 0xc19bf174,
    0xe49b69c1, 0xefbe4786, 0x0fc19dc6, 0x240ca1cc, 0x2de92c6f, 0x4a7484aa, 0x5cb0a9dc, 0x76f988da,
    0x983e5152, 0xa831c66d, 0xb00327c8, 0xbf597fc7, 0xc6e00bf3, 0xd5a79147, 0x06ca6351, 0x14292967,
    0x27b70a85, 0x2e1b2138, 0x4d2c6dfc, 0x53380d13, 0x650a7354, 0x766a0abb, 0x81c2c92e, 0x92722c85,
    0xa2bfe8a1, 0xa81a664b, 0xc24b8b70, 0xc76c51a3, 0xd192e819, 0xd6990624, 0xf40e3585, 0x106aa070,
    0x19a4c116, 0x1e376c08, 0x2748774c, 0x34b0bcb5, 0x391c0cb3, 0x4ed8aa4a, 0x5b9cca4f, 0x682e6ff3,
    0x748f82ee, 0x78a5636f, 0x84c87814, 0x8cc70208, 0x90befffa, 0xa4506ceb, 0xbef9a3f7, 0xc67178f2]

/-- The working variables of one block are eight 32-bit words. -/
structure Words where
  a : Nat
  b : Nat
  c : Nat
  d : Nat
  e : Nat
  f : Nat
  g : Nat
  h : Nat

def initial : Words :=
  ⟨0x6a09e667, 0xbb67ae85, 0x3c6ef372, 0xa54ff53a, 0x510e527f, 0x9b05688c, 0x1f83d9ab, 0x5be0cd19⟩

def add32 (x y : Nat) : Nat := (x + y) % 2 ^ 32

def rotateRight (x count : Nat) : Nat := ((x >>> count) ||| (x <<< (32 - count))) % 2 ^ 32

/-- The schedule holds its latest word first. -/
def scheduleWord (words : List Nat) : Nat :=
  let back (n : Nat) := words.getD (n - 1) 0
  let small0 := rotateRight (back 15) 7 ^^^ rotateRight (back 15) 18 ^^^ (back 15 >>> 3)
  let small1 := rotateRight (back 2) 17 ^^^ rotateRight (back 2) 19 ^^^ (back 2 >>> 10)
  add32 (add32 (back 16) small0) (add32 (back 7) small1)

def extendSchedule : Nat → List Nat → List Nat
  | 0, words => words
  | count + 1, words => extendSchedule count (scheduleWord words :: words)

def round (words : Words) (input : Nat × Nat) : Words :=
  let big1 := rotateRight words.e 6 ^^^ rotateRight words.e 11 ^^^ rotateRight words.e 25
  let choice := (words.e &&& words.f) ^^^ ((2 ^ 32 - 1 - words.e) &&& words.g)
  let first := add32 (add32 (add32 words.h big1) (add32 choice input.1)) input.2
  let big0 := rotateRight words.a 2 ^^^ rotateRight words.a 13 ^^^ rotateRight words.a 22
  let majority := (words.a &&& words.b) ^^^ (words.a &&& words.c) ^^^ (words.b &&& words.c)
  ⟨add32 first (add32 big0 majority), words.a, words.b, words.c, add32 words.d first, words.e,
    words.f, words.g⟩

def compress (state : Words) (block : List Nat) : Words :=
  let schedule := (extendSchedule 48 block.reverse).reverse
  let last := (roundConstants.zip schedule).foldl round state
  ⟨add32 state.a last.a, add32 state.b last.b, add32 state.c last.c, add32 state.d last.d,
    add32 state.e last.e, add32 state.f last.f, add32 state.g last.g, add32 state.h last.h⟩

/-- The padding closes the message with one bit, zeros and its length in bits. -/
def pad (bytes : List Nat) : List Nat :=
  let bits := bytes.length * 8
  let zeros := (119 - bytes.length % 64) % 64
  bytes ++ [0x80] ++ List.replicate zeros 0 ++
    (List.range 8).map fun i => bits / 256 ^ (7 - i) % 256

def toWords : List Nat → List Nat
  | a :: b :: c :: d :: rest => (((a * 256 + b) * 256 + c) * 256 + d) :: toWords rest
  | _ => []

def compressAll : Nat → Words → List Nat → Words
  | 0, state, _ => state
  | count + 1, state, words => compressAll count (compress state (words.take 16)) (words.drop 16)

/-- This is `hashlib.sha256(bytes).hexdigest()`. -/
def hexdigest (bytes : List Nat) : Text :=
  let words := toWords (pad bytes)
  let state := compressAll (words.length / 16) initial words
  [state.a, state.b, state.c, state.d, state.e, state.f, state.g, state.h].flatMap (hexDigits 8)

example : hexdigest (utf8 "abc".toList) =
    "ba7816bf8f01cfea414140de5dae2223b00361a396177a9cb410ff61f20015ad".toList := by
  decide +kernel

end Sha256

/-- This is a digit of the alphabet of `base64.urlsafe_b64encode`. -/
def base64Digit (n : Nat) : Char :=
  if n < 26 then Char.ofNat (65 + n)
  else if n < 52 then Char.ofNat (71 + n)
  else if n < 62 then Char.ofNat (n - 4)
  else if n = 62 then '-'
  else '_'

/-- This is `base64.urlsafe_b64encode(bytes).decode()`. -/
def urlsafeB64encode : List Nat → Text
  | [] => []
  | [a] => [base64Digit (a / 4), base64Digit (a % 4 * 16), '=', '=']
  | [a, b] => [base64Digit (a / 4), base64Digit (a % 4 * 16 + b / 16), base64Digit (b % 16 * 4), '=']
  | a :: b :: c :: rest =>
      base64Digit (a / 4) :: base64Digit (a % 4 * 16 + b / 16) ::
        base64Digit (b % 16 * 4 + c / 64) :: base64Digit (c % 64) :: urlsafeB64encode rest

example : urlsafeB64encode [0xfb, 0xff, 0x41, 0x42] = "-_9BQg==".toList := by decide

/-- This is `uuid.UUID`, a number of 128 bits. -/
structure Uuid where
  int : Nat
  fits : int < 16 ^ 32
  deriving DecidableEq

/-- This is `str(uuid)`. -/
def Uuid.str (uuid : Uuid) : Text :=
  let hex := hexDigits 32 uuid.int
  hex.take 8 ++ '-' :: (hex.drop 8).take 4 ++ '-' :: (hex.drop 12).take 4 ++
    '-' :: (hex.drop 16).take 4 ++ '-' :: hex.drop 20

example : Uuid.str ⟨0x6ba7b8109dad11d180b400c04fd430c8, by decide⟩ =
    "6ba7b810-9dad-11d1-80b4-00c04fd430c8".toList := by decide

/-- An incremental decoder takes its input in chunks and keeps what it cannot decode yet. -/
structure IncrementalDecoder where
  State : Type
  start : State
  feed : State → List UInt8 → Text × State
  flush : State → Text

/-- This is the text of these chunks and the state after them. -/
def IncrementalDecoder.feedAll (decoder : IncrementalDecoder) (state : decoder.State) :
    List (List UInt8) → Text × decoder.State
  | [] => ([], state)
  | chunk :: rest =>
      let fed := decoder.feed state chunk
      let later := decoder.feedAll fed.2 rest
      (fed.1 ++ later.1, later.2)

/-- The chunks of an input are decoded to its text, whatever they are. -/
def IncrementalDecoder.Agrees (decoder : IncrementalDecoder) (decode : List UInt8 → Text) : Prop :=
  ∀ chunks, (decoder.feedAll decoder.start chunks).1 ++
    decoder.flush (decoder.feedAll decoder.start chunks).2 = decode chunks.flatten

namespace Utf8

/-- This is U+FFFD. -/
def replacement : Char := Char.ofNat 0xFFFD

/-- This is the number of bytes that follow a lead byte. -/
def tailLength (lead : UInt8) : Nat :=
  if 0xC2 ≤ lead ∧ lead ≤ 0xDF then 1
  else if 0xE0 ≤ lead ∧ lead ≤ 0xEF then 2
  else if 0xF0 ≤ lead ∧ lead ≤ 0xF4 then 3
  else 0

/-- The first byte after a lead byte lies in these bounds. -/
def tailBounds (lead : UInt8) : UInt8 × UInt8 :=
  if lead = 0xE0 then (0xA0, 0xBF)
  else if lead = 0xED then (0x80, 0x9F)
  else if lead = 0xF0 then (0x90, 0xBF)
  else if lead = 0xF4 then (0x80, 0x8F)
  else (0x80, 0xBF)

/-- This is the code point of a whole sequence of at least two bytes. -/
def codePoint (lead : UInt8) (tail : List UInt8) : Char :=
  Char.ofNat (tail.foldl (fun code byte => code * 64 + byte.toNat % 64)
    (lead.toNat % 2 ^ (6 - tail.length)))

/-- This is the text of a byte that starts no sequence. -/
def single (byte : UInt8) : Char := if byte < 0x80 then Char.ofNat byte.toNat else replacement

/-- A sequence that has begun: its bytes so far, the number of missing bytes and the bounds of the
next one. -/
structure Pending where
  lead : UInt8
  tail : List UInt8
  missing : Nat
  bounds : UInt8 × UInt8
  deriving DecidableEq

/-- A byte on its own is decoded, or it begins a sequence. -/
def begin (byte : UInt8) : Text × Option Pending :=
  if tailLength byte = 0 then ([single byte], none)
  else ([], some ⟨byte, [], tailLength byte, tailBounds byte⟩)

/-- One byte completes or continues the sequence, or breaks it, which leaves one replacement. -/
def step : Option Pending → UInt8 → Text × Option Pending
  | none, byte => begin byte
  | some pending, byte =>
      if pending.bounds.1 ≤ byte ∧ byte ≤ pending.bounds.2 then
        let tail := pending.tail ++ [byte]
        if pending.missing = 1 then ([codePoint pending.lead tail], none)
        else ([], some ⟨pending.lead, tail, pending.missing - 1, (0x80, 0xBF)⟩)
      else
        let begun := begin byte
        (replacement :: begun.1, begun.2)

/-- These are the bytes of one chunk. -/
def feed (state : Option Pending) : List UInt8 → Text × Option Pending
  | [] => ([], state)
  | byte :: rest =>
      let stepped := step state byte
      let later := feed stepped.2 rest
      (stepped.1 ++ later.1, later.2)

/-- This is `decode(b"", final=True)`. -/
def flush : Option Pending → Text
  | none => []
  | some _ => [replacement]

/-- This is `codecs.getincrementaldecoder("utf-8")("replace")`. -/
def decoder : IncrementalDecoder := ⟨Option Pending, none, feed, flush⟩

/-- These are the valid bytes after a lead byte, and the bytes after them. -/
def takeTail : Nat → UInt8 × UInt8 → List UInt8 → List UInt8 × List UInt8
  | missing + 1, bounds, byte :: rest =>
      if bounds.1 ≤ byte ∧ byte ≤ bounds.2 then
        let taken := takeTail missing (0x80, 0xBF) rest
        (byte :: taken.1, taken.2)
      else ([], byte :: rest)
  | 0, _, bytes => ([], bytes)
  | _ + 1, _, [] => ([], [])

theorem length_takeTail (missing : Nat) (bounds : UInt8 × UInt8) (bytes : List UInt8) :
    (takeTail missing bounds bytes).2.length ≤ bytes.length := by
  induction bytes generalizing missing bounds with
  | nil => cases missing <;> exact Nat.le_refl _
  | cons byte rest ih =>
      cases missing with
      | zero => exact Nat.le_refl _
      | succ missing =>
          unfold takeTail
          split
          · exact Nat.le_succ_of_le (ih missing (0x80, 0xBF))
          · exact Nat.le_refl _

/-- This is `bytes.decode("utf-8", "replace")`: the longest valid start of a broken sequence is replaced
as a whole. -/
def decode : List UInt8 → Text
  | [] => []
  | byte :: rest =>
      if tailLength byte = 0 then single byte :: decode rest
      else
        (if (takeTail (tailLength byte) (tailBounds byte) rest).1.length = tailLength byte then
          codePoint byte (takeTail (tailLength byte) (tailBounds byte) rest).1
        else replacement) :: decode (takeTail (tailLength byte) (tailBounds byte) rest).2
termination_by bytes => bytes.length
decreasing_by
  · exact Nat.lt_succ_self _
  · exact Nat.lt_succ_of_le (length_takeTail _ _ rest)

end Utf8

end LumenCopilot.Python
