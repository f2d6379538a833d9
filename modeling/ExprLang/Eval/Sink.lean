set_option autoImplicit false

/-!
Where a program prints to. A sink takes one piece of text after the other, and a piece that it
cannot take does not stop the program.
-/

namespace ExprLang

class Sink (σ : Type) where
  write : String → σ → σ

/-- Keeps everything. -/
structure Buffer where
  text : String

instance : Sink Buffer where
  write piece buffer := ⟨buffer.text ++ piece⟩

def Buffer.empty : Buffer := ⟨""⟩

/-- Has room for so many more bytes. A piece that does not fit is taken as far as it goes, and
counts as a failure. -/
structure LimitedWriter where
  room : Nat
  taken : List UInt8
  failures : Nat

instance : Sink LimitedWriter where
  write piece w :=
    let bytes := piece.toUTF8.toList
    { room := w.room - bytes.length
      taken := w.taken ++ bytes.take w.room
      failures := w.failures + if bytes.length ≤ w.room then 0 else 1 }

def LimitedWriter.withRoom (room : Nat) : LimitedWriter := ⟨room, [], 0⟩

/-- A device that takes nothing, behind a line buffer. The end of a line goes to the device at once,
and so does a piece that fills the buffer; a shorter piece is buffered, cannot be passed on, and
from then on is in the way of every further piece, even an empty one. -/
structure FullDevice where
  blocked : Bool
  failures : Nat

/-- How many bytes the line buffer of a device holds. -/
def FullDevice.bufferSize : Nat := 1024

instance : Sink FullDevice where
  write piece d :=
    let buffered := !piece.isEmpty && !piece.contains '\n'
      && piece.utf8ByteSize < FullDevice.bufferSize
    { blocked := d.blocked || buffered
      failures := d.failures + if d.blocked || !piece.isEmpty then 1 else 0 }

def FullDevice.new : FullDevice := ⟨false, 0⟩

end ExprLang
