/-!
The digest of a text, by the algorithm MD5: sixteen bytes that seem to have nothing to do with the
text. The text is padded to blocks of sixteen words, and each block stirs a state of four words in
four passes of sixteen rounds.
-/

namespace PipelineShell.Digest

/-- The words that are stirred. -/
structure State where
  first : UInt32
  second : UInt32
  third : UInt32
  fourth : UInt32

def State.initial : State :=
  ⟨0x67452301, 0xefcdab89, 0x98badcfe, 0x10325476⟩

def State.add (state other : State) : State :=
  ⟨state.first + other.first, state.second + other.second, state.third + other.third,
    state.fourth + other.fourth⟩

/-- What is added in each round: the sines of the numbers from one on, without their signs and in
units of 2 to the power of -32. -/
def addends : Array UInt32 :=
  #[0xd76aa478, 0xe8c7b756, 0x242070db, 0xc1bdceee, 0xf57c0faf, 0x4787c62a, 0xa8304613, 0xfd469501,
    0x698098d8, 0x8b44f7af, 0xffff5bb1, 0x895cd7be, 0x6b901122, 0xfd987193, 0xa679438e, 0x49b40821,
    0xf61e2562, 0xc040b340, 0x265e5a51, 0xe9b6c7aa, 0xd62f105d, 0x02441453, 0xd8a1e681, 0xe7d3fbc8,
    0x21e1cde6, 0xc33707d6, 0xf4d50d87, 0x455a14ed, 0xa9e3e905, 0xfcefa3f8, 0x676f02d9, 0x8d2a4c8a,
    0xfffa3942, 0x8771f681, 0x6d9d6122, 0xfde5380c, 0xa4beea44, 0x4bdecfa9, 0xf6bb4b60, 0xbebfbc70,
    0x289b7ec6, 0xeaa127fa, 0xd4ef3085, 0x04881d05, 0xd9d4d039, 0xe6db99e5, 0x1fa27cf8, 0xc4ac5665,
    0xf4292244, 0x432aff97, 0xab9423a7, 0xfc93a039, 0x655b59c3, 0x8f0ccc92, 0xffeff47d, 0x85845dd1,
    0x6fa87e4f, 0xfe2ce6e0, 0xa3014314, 0x4e0811a1, 0xf7537e82, 0xbd3af235, 0x2ad7d2bb, 0xeb86d391]

def turns (pass : Nat) : Array UInt32 :=
  match pass with
  | 0 => #[7, 12, 17, 22]
  | 1 => #[5, 9, 14, 20]
  | 2 => #[4, 11, 16, 23]
  | _ => #[6, 10, 15, 21]

def turn (word count : UInt32) : UInt32 :=
  (word <<< count) ||| (word >>> (32 - count))

def mix (pass : Nat) (second third fourth : UInt32) : UInt32 :=
  match pass with
  | 0 => (second &&& third) ||| (~~~second &&& fourth)
  | 1 => (fourth &&& second) ||| (~~~fourth &&& third)
  | 2 => second ^^^ third ^^^ fourth
  | _ => third ^^^ (second ||| ~~~fourth)

def wordPlace (pass round : Nat) : Nat :=
  match pass with
  | 0 => round % 16
  | 1 => (5 * round + 1) % 16
  | 2 => (3 * round + 5) % 16
  | _ => 7 * round % 16

def stirOnce (block : Array UInt32) (state : State) (round : Nat) : State :=
  let pass := round / 16
  let mixed := mix pass state.second state.third state.fourth
  let sum := state.first + mixed + addends[round]?.getD 0 + block[wordPlace pass round]?.getD 0
  let turned := turn sum ((turns pass)[round % 4]?.getD 0)
  ⟨state.fourth, state.second + turned, state.second, state.third⟩

def stir (state : State) (block : Array UInt32) : State :=
  state.add ((List.range 64).foldl (stirOnce block) state)

def bytesOf (count number : Nat) : List UInt8 :=
  (List.range count).map fun place => UInt8.ofNat (number / Nat.pow 256 place)

def padded (text : List UInt8) : List UInt8 :=
  let size := text.length
  let zeros := (119 - size % 64) % 64
  text ++ 0x80 :: List.replicate zeros 0 ++ bytesOf 8 (8 * size % Nat.pow 2 64)

def words : List UInt8 → List UInt32
  | lowest :: low :: high :: highest :: rest =>
      (lowest.toUInt32 ||| (low.toUInt32 <<< 8) ||| (high.toUInt32 <<< 16)
        ||| (highest.toUInt32 <<< 24)) :: words rest
  | _ => []

/-- The state after words. `fuel` bounds the number of blocks. -/
def stirAll : Nat → State → List UInt32 → State
  | 0, state, _ => state
  | _, state, [] => state
  | fuel + 1, state, words => stirAll fuel (stir state (words.take 16).toArray) (words.drop 16)

def ofBytes (text : List UInt8) : List UInt8 :=
  let words := words (padded text)
  let state := stirAll words.length .initial words
  [state.first, state.second, state.third, state.fourth].flatMap fun word =>
    bytesOf 4 word.toNat

end PipelineShell.Digest
