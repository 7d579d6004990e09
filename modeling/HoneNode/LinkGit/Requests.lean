import Mathlib.Data.List.DropRight
import HoneNode.Lib.Utf8
import HoneNode.LinkGit.Delta
import HoneNode.LinkGit.PktLine

/-!
# LinkGit.Requests — what pushes and fetches ask for

Both requests begin with lines that are read up to the first flush, or to what cannot be
read. A push has the refs to update there and its pack behind; a fetch has the objects that
it wants and, as far as the reader gets, those that the client has.
-/

namespace HoneNode.LinkGit

/-- The text of a line: without newlines at its end, up to the first NUL. -/
def lineText (line : Bytes) : String :=
  String.ofList (((Text.fromUtf8Lossy line).toList.rdropWhile (· = '\n')).takeWhile (· ≠ '\x00'))

/-! ## Pushes -/

structure ReceivePackRequest where
  /-- Old hash, new hash and name of each ref. -/
  updates : List (String × String × String)
  pack : Bytes

/-- Three pieces between blanks; the last one may have blanks in it. -/
def refLine (line : Bytes) : Option (String × String × String) := do
  let (old, rest) ← splitOnce ' ' (lineText line)
  let (new, name) ← splitOnce ' ' rest
  return (old, new, name)

def parseReceivePack (request : Bytes) : Except String ReceivePackRequest := do
  let (lines, reader) := (PktReader.new request).lines
  let pack ← cutBytes reader.pos request.length request
  return ⟨lines.filterMap refLine, pack⟩

/-- What the reader leaves. -/
def packOf (request : Bytes) : Bytes := (PktReader.new request).lines.2.rest

section Pushes

variable {r : PktReader}

theorem data_next : r.next.2.data = r.data := by
  unfold PktReader.next
  split
  · rfl
  · split
    · rfl
    · dsimp only
      split_ifs <;> rfl

theorem data_lines : r.lines.2.data = r.data := by
  induction r using PktReader.lines.induct with
  | case1 r line r' hnext hpos ih => rw [PktReader.lines_of_line hnext, ih, hpos.1]
  | case2 r e r' hnext =>
    rw [PktReader.lines_of_error hnext, ← data_next (r := r), hnext]
  | case3 r r' hnext =>
    rw [PktReader.lines_of_stop hnext, ← data_next (r := r), hnext]

/-- Reading a push does not panic, and its pack is all that is left. -/
theorem parseReceivePack_ok (request : Bytes) :
    ∃ updates, parseReceivePack request = .ok ⟨updates, packOf request⟩ := by
  have hdata : (PktReader.new request).lines.2.data = request := data_lines
  have hpos := (PktReader.new request).lines.2.pos_le
  rw [hdata] at hpos
  have hcut : cutBytes (PktReader.new request).lines.2.pos request.length request =
      .ok (packOf request) := by
    refine cutBytes_ok_iff.2 ⟨hpos, le_rfl, ?_⟩
    rw [packOf, PktReader.rest, hdata, Text.slice, List.take_of_length_le]
    rw [List.length_drop]
  refine ⟨(PktReader.new request).lines.1.filterMap refLine, ?_⟩
  rw [parseReceivePack]
  simp only [bind, Except.bind, hcut]
  rfl

end Pushes

end HoneNode.LinkGit
