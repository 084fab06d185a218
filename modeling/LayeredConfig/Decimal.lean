/-!
# Whole numbers in decimal

Numbers are written with the fewest digits and a leading `-` below zero. Reading also takes a leading
`+` and leading zeros, and nothing but a sign and ASCII digits: no blanks, no separators.
-/

namespace LayeredConfig.Decimal

/-! ## Writing -/

def ofNat (n : Nat) : List Char := Nat.toDigits 10 n

def ofInt : Int → List Char
  | .ofNat n => ofNat n
  | .negSucc n => '-' :: ofNat (n + 1)

def render (n : Int) : String := String.ofList (ofInt n)

theorem isDigit_of_mem_ofNat {c : Char} {n : Nat} (h : c ∈ ofNat n) : c.isDigit = true :=
  Nat.isDigit_of_mem_toDigits (by decide) (by decide) h

theorem mem_render {c : Char} {n : Int} (h : c ∈ (render n).toList) : c = '-' ∨ c.isDigit = true := by
  rw [render, String.toList_ofList] at h
  cases n with
  | ofNat n => exact .inr (isDigit_of_mem_ofNat h)
  | negSucc n => exact (List.mem_cons.mp h).imp_right isDigit_of_mem_ofNat

/-! ## Reading -/

/-- Consecutive digits: the number that they denote, and the power of ten that has as many zeros. -/
structure Block where
  value : Nat
  scale : Nat

namespace Block

/-- The number that blocks of digits denote, the last block first. -/
def total : List Block → Nat
  | [] => 0
  | last :: before => total before * last.scale + last.value

/-- Puts a block behind others. Two blocks of one length become one block of twice that length, so that a
long number is put together from its halves. -/
def push : List Block → Block → List Block
  | [], block => [block]
  | last :: before, block =>
    if last.scale = block.scale then
      push before ⟨last.value * block.scale + block.value, last.scale * block.scale⟩
    else block :: last :: before

theorem total_push (blocks : List Block) (block : Block) :
    total (push blocks block) = total blocks * block.scale + block.value := by
  induction blocks generalizing block with
  | nil => rfl
  | cons last before ih =>
    by_cases h : last.scale = block.scale
    · simp only [push, h, if_true, ih, total, Nat.add_mul, Nat.mul_assoc, Nat.add_assoc]
    · simp only [push, h, if_false, total]

end Block

/-- The number that digits denote; zero if there are none. -/
def ofDigits (cs : List Char) : Nat :=
  Block.total (cs.foldl (fun blocks c => Block.push blocks ⟨c.toNat - '0'.toNat, 10⟩) [])

def nat? (cs : List Char) : Option Nat :=
  if cs ≠ [] ∧ cs.all Char.isDigit then some (ofDigits cs) else none

/-- A number after an optional sign, given how its size is read. -/
def signed? (size? : List Char → Option Nat) : List Char → Option Int
  | '-' :: digits => (size? digits).map fun n => -(n : Int)
  | '+' :: digits => (size? digits).map fun n => (n : Int)
  | digits => (size? digits).map fun n => (n : Int)

def int? (cs : List Char) : Option Int := signed? nat? cs

/-- The 32-bit number that the text denotes; none if it does not fit. -/
def int32? (cs : List Char) : Option Int32 :=
  (int? cs).bind fun n =>
    if Int32.minValue.toInt ≤ n ∧ n ≤ Int32.maxValue.toInt then some (Int32.ofInt n) else none

/-- The 64-bit number that the text denotes; none if it does not fit. -/
def int64? (cs : List Char) : Option Int64 :=
  (int? cs).bind fun n =>
    if Int64.minValue.toInt ≤ n ∧ n ≤ Int64.maxValue.toInt then some (Int64.ofInt n) else none

/-! ## Reading back -/

theorem total_foldl_push (blocks : List Block) (cs : List Char) :
    Block.total (cs.foldl (fun blocks c => Block.push blocks ⟨c.toNat - '0'.toNat, 10⟩) blocks) =
      Nat.ofDigitChars 10 cs (Block.total blocks) := by
  induction cs generalizing blocks with
  | nil => rfl
  | cons c cs ih => rw [List.foldl_cons, ih, Block.total_push, Nat.ofDigitChars_cons, Nat.mul_comm]

theorem ofDigits_eq (cs : List Char) : ofDigits cs = Nat.ofDigitChars 10 cs 0 :=
  total_foldl_push [] cs

@[simp] theorem nat?_ofNat (n : Nat) : nat? (ofNat n) = some n := by
  have hdigits : (ofNat n).all Char.isDigit = true := by
    simpa [List.all_eq_true] using fun c hc => isDigit_of_mem_ofNat hc
  rw [nat?, if_pos ⟨Nat.toDigits_ne_nil, hdigits⟩, ofDigits_eq, ofNat, Nat.ofDigitChars_ten_toDigits]

theorem signed?_of_digits {size? : List Char → Option Nat} {cs : List Char}
    (h : ∀ c ∈ cs, c.isDigit = true) : signed? size? cs = (size? cs).map fun n => (n : Int) := by
  unfold signed?
  split
  · exact absurd (h '-' List.mem_cons_self) (by decide)
  · exact absurd (h '+' List.mem_cons_self) (by decide)
  · rfl

@[simp] theorem int?_ofInt (n : Int) : int? (ofInt n) = some n := by
  cases n with
  | ofNat n =>
    rw [ofInt, int?, signed?_of_digits fun c => isDigit_of_mem_ofNat, nat?_ofNat]
    rfl
  | negSucc n =>
    simp only [ofInt, int?, signed?, nat?_ofNat]
    rfl

theorem int64?_ofInt {n : Int} (hmin : Int64.minValue.toInt ≤ n) (hmax : n ≤ Int64.maxValue.toInt) :
    int64? (ofInt n) = some (Int64.ofInt n) := by
  rw [int64?, int?_ofInt, Option.bind_some, if_pos ⟨hmin, hmax⟩]

end LayeredConfig.Decimal
