import SliceRecovery.Analysis.State

/-!
# SliceRecovery.Analysis.Snapshot -- analyses at rest

A snapshot is an analysis as it is stored: variables as a list, no batch and no history. Setting
an analysis up from a snapshot checks that every region holds an address; region kinds follow from
the list a region stands in, and of two variables at one address the later counts.
-/

namespace SliceRecovery

/-- An analysis as it is stored. -/
structure Snapshot where
  arch : Option Architecture := none
  segments : List Segment := []
  sections : List Region := []
  types : TypeTable := OrderedMap.empty
  declared : List Variable := []
  references : List CodeReference := []
  blocks : List Block := []

/-- What a run leaves in the type database. -/
structure Annotations where
  types : TypeTable
  declared : List Variable

/-- The memory view of an object file. -/
structure ObjectImage where
  arch : Option Architecture
  segments : List Segment
  sections : List Region

namespace ObjectImage

/-- All regions, segments first. -/
def regions (i : ObjectImage) : List Region := i.segments.map Segment.region ++ i.sections

end ObjectImage

namespace Segment

/-- The segment as it is listed among segments, if it holds an address. -/
def validated (s : Segment) : Except EmptyRange Segment :=
  ({ s.region with kind := .segment } : Region).validated.map fun r => ⟨r, s.bytes⟩

end Segment

namespace Analysis

/-- Set an analysis up. -/
def ofSnapshot (s : Snapshot) : Except EmptyRange Analysis := do
  let segments ← s.segments.mapM Segment.validated
  let sections ← s.sections.mapM fun r => ({ r with kind := .sectionEntry } : Region).validated
  return {
    arch := s.arch, segments, sections, types := s.types
    declared := .ofList s.declared
    references := s.references, blocks := s.blocks }

/-- The analysis as it is stored. -/
def toSnapshot (h : Analysis) : Snapshot where
  arch := h.arch
  segments := h.segments
  sections := h.sections
  types := h.types
  declared := h.declared.values
  references := h.references
  blocks := h.blocks

/-- Replace the memory view by that of an object file. An architecture that is known is kept. -/
def withImage (h : Analysis) (i : ObjectImage) : Analysis :=
  { h with arch := h.arch <|> i.arch, segments := i.segments, sections := i.sections }

/-- The types and variables, the latter with the pointers that memory stores. -/
def annotations (h : Analysis) : Annotations := ⟨h.types, h.reportedVariables⟩

end Analysis
end SliceRecovery
