import Mathlib
import Switchboard.Stream

/-! What the reads of a stream bring, and the failures among them. -/
namespace Switchboard.Read

def failures (reads : List Read) : List String :=
  reads.filterMap fun
    | .data _ => none
    | .failure text => some text

variable (b : Bytes) (text : String) (reads : List Read)

@[simp] theorem bytes_nil : bytes [] = [] := rfl

@[simp] theorem bytes_data : bytes (.data b :: reads) = b ++ bytes reads := rfl

@[simp] theorem bytes_failure : bytes (.failure text :: reads) = bytes reads := rfl

@[simp] theorem failures_nil : failures [] = [] := rfl

@[simp] theorem failures_data : failures (.data b :: reads) = failures reads := rfl

@[simp] theorem failures_failure :
    failures (.failure text :: reads) = text :: failures reads := rfl

end Switchboard.Read
