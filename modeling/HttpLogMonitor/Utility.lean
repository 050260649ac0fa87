import HttpLogMonitor.Library.Text
import HttpLogMonitor.Objects

/-!
# Sections of a URL

`getSection` hides the first `http://` behind a marker so that its
slashes are not split at, keeps what stands before the second remaining
slash, and puts the scheme back. A URL without `http://` has the empty
section.
-/

namespace HttpLogMonitor.Utility

open Text

def scheme : JavaString := ['h', 't', 't', 'p', ':', '/', '/']

def marker : JavaString := ['~', '_', '_', '_', '~']

def getSection (url : JavaString) : Except JavaException JavaString :=
  if contains url scheme then
    match split '/' (replaceFirst scheme marker url) with
    | [] => .error .arrayIndexOutOfBounds
    | [part] => .ok (replace marker scheme part)
    | part₀ :: part₁ :: _ => .ok (replace marker scheme (part₀ ++ '/' :: part₁))
  else .ok []

/-- The marker is never dropped as an empty part, so `parts[0]` exists. -/
theorem getSection_isOk (url : JavaString) : ∃ sec, getSection url = .ok sec := by
  unfold getSection
  split
  · rename_i hcontains
    have hmem : '~' ∈ replaceFirst scheme marker url :=
      mem_replaceFirst_of_infix (by simpa [contains] using hcontains) (by decide)
    have hne : split '/' (replaceFirst scheme marker url) ≠ [] :=
      split_ne_nil hmem (by decide)
    split
    · exact (hne ‹_›).elim
    · exact ⟨_, rfl⟩
    · exact ⟨_, rfl⟩
  · exact ⟨[], rfl⟩

def sectionOf (url : JavaString) : JavaString :=
  match getSection url with
  | .ok sec => sec
  | .error _ => []

theorem getSection_eq_ok (url : JavaString) : getSection url = .ok (sectionOf url) := by
  obtain ⟨sec, hsec⟩ := getSection_isOk url
  simp [sectionOf, hsec]

example : sectionOf "http://my.site.com/pages/create".toList =
    "http://my.site.com/pages".toList := by decide

end HttpLogMonitor.Utility
