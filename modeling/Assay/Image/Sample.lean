import Assay.Decimal.Binary
import Assay.Text.Utf8
import Assay.Image.ElementType

namespace Assay.Image

def lowBytes : Nat → Nat → Bytes
  | 0, _ => []
  | count + 1, n => (n % 256).toUInt8 :: lowBytes count (n / 256)

def ofLowBytes : Bytes → Nat
  | [] => 0
  | b :: rest => b.toNat + 256 * ofLowBytes rest

/-- How the bytes of a sample stand for a number. -/
inductive Coding where
  | unsigned
  | signed
  | real (format : Decimal.Format)

def ElementType.coding : ElementType → Coding
  | uchar | ushort | uint | ulong | ulongLong => .unsigned
  | char | short | int | long | longLong => .signed
  | float => .real .single
  | double => .real .double

/-- The number of values that so many bytes tell apart. -/
def span : Nat → Nat
  | 0 => 1
  | count + 1 => 256 * span count

def encodeBits (t : ElementType) (x : Float) : Nat :=
  match t.coding with
  | .unsigned => (Decimal.truncateTo 0 ((span t.size : Int) - 1) x).toNat
  | .signed =>
    let half : Int := span t.size / 2
    ((Decimal.truncateTo (-half) (half - 1) x) % (span t.size : Int)).toNat
  | .real format => format.encode (Decimal.Binary.ofFloat x)

def decodeBits (t : ElementType) (bits : Nat) : Float :=
  match t.coding with
  | .unsigned => Decimal.ofInt bits
  | .signed =>
    if 2 * bits < span t.size then Decimal.ofInt bits
    else Decimal.ofInt ((bits : Int) - (span t.size : Int))
  | .real format => (format.decode bits).toFloat

def encodeSample (t : ElementType) (x : Float) : Bytes :=
  lowBytes t.size (encodeBits t x)

/-- The sample of stored bytes; `highFirst` tells their order. -/
def decodeSample (t : ElementType) (highFirst : Bool) (bytes : Bytes) : Float :=
  decodeBits t (ofLowBytes (if highFirst then bytes.reverse else bytes))

def encodeSamples (t : ElementType) (xs : List Float) : Bytes :=
  xs.flatMap (encodeSample t)

/-- Reads a number of samples of a fixed width from bytes that hold at least as many. -/
def decodeSamples (t : ElementType) (highFirst : Bool) : Nat → Bytes → List Float
  | 0, _ => []
  | count + 1, bytes =>
    decodeSample t highFirst (bytes.take t.size) ::
      decodeSamples t highFirst count (bytes.drop t.size)

@[simp] theorem length_lowBytes (count n : Nat) : (lowBytes count n).length = count := by
  induction count generalizing n with
  | zero => rfl
  | succ count ih => simp [lowBytes, ih]

theorem ofLowBytes_lowBytes (count n : Nat) : ofLowBytes (lowBytes count n) = n % span count := by
  induction count generalizing n with
  | zero => simp [lowBytes, ofLowBytes, span, Nat.mod_one]
  | succ count ih =>
    have h : (n % 256).toUInt8.toNat = n % 256 := by simp [Nat.toUInt8]
    simp [lowBytes, ofLowBytes, ih, h, span, Nat.mod_mul]

@[simp] theorem length_encodeSample (t : ElementType) (x : Float) :
    (encodeSample t x).length = t.size := by
  simp [encodeSample]

@[simp] theorem length_decodeSamples (t : ElementType) (highFirst : Bool) (count : Nat)
    (bytes : Bytes) : (decodeSamples t highFirst count bytes).length = count := by
  induction count generalizing bytes with
  | zero => rfl
  | succ count ih => simp [decodeSamples, ih]

example : encodeSample .short (-2.0) = [0xFE, 0xFF] := by decide +kernel
example : encodeSample .uchar 300.7 = [0xFF] := by decide +kernel
example : encodeSample .float 1.5 = [0, 0, 0xC0, 0x3F] := by decide +kernel

end Assay.Image
