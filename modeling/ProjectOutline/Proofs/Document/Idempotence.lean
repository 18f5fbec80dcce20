import ProjectOutline.Outline
import ProjectOutline.Proofs.Document.Absorption
import ProjectOutline.Proofs.Report.Names

/-!
# When a report leaves its own document unchanged

A second patch with the same text changes nothing exactly if the text holds neither marker, and the
standard markers occur in the Markdown of a report exactly if they occur in a name that it shows.
Together: a document stays as it is under a second patch with its report if and only if no root of a
package, no segment of a placed path and no declared name holds a standard marker
(`patch_report_again_iff`).

Nothing on the way from a syntax tree to the document removes such a name. The name of a class
member keeps its quotes and whatever stands between them, so a single member is enough to make the
second patch another change (`patch_report_again_marked`).
-/

namespace ProjectOutline

namespace Markers

theorem standard_separable : standard.Separable where
  opening_ne := by decide
  closing_ne := by decide
  opening_line := by decide
  closing_line := by decide
  closing_apart := by decide

theorem standard_opening_bracketed : Bracketed standard.opening.toList where
  first := by decide
  last := by decide
  line := by decide

theorem standard_closing_bracketed : Bracketed standard.closing.toList where
  first := by decide
  last := by decide
  line := by decide

theorem standard_avoids_render_iff (r : Report) :
    standard.Avoids r.render ↔ ∀ name ∈ r.names, standard.Avoids name := by
  constructor
  · rintro ⟨hopening, hclosing⟩ name hname
    rw [Report.infix_render_iff standard_opening_bracketed] at hopening
    rw [Report.infix_render_iff standard_closing_bracketed] at hclosing
    exact ⟨fun hinfix => hopening ⟨name, hname, hinfix⟩,
      fun hinfix => hclosing ⟨name, hname, hinfix⟩⟩
  · intro hnames
    constructor
    · rw [Report.infix_render_iff standard_opening_bracketed]
      rintro ⟨name, hname, hinfix⟩
      exact (hnames name hname).opening hinfix
    · rw [Report.infix_render_iff standard_closing_bracketed]
      rintro ⟨name, hname, hinfix⟩
      exact (hnames name hname).closing hinfix

end Markers

/-- A placed file whose path and declarations hold neither marker. -/
structure Report.Placement.Unmarked (m : Markers) (file : Report.Placement) : Prop where
  segments : ∀ segment ∈ file.segments, m.Avoids segment
  declarations : ∀ d ∈ file.declarations, ∀ name ∈ d.names, m.Avoids name

theorem Report.names_build_avoid_iff (m : Markers) (entries : List SourceFile)
    (packages : List Package) :
    (∀ name ∈ (build entries packages).names, m.Avoids name) ↔
      (∀ p ∈ packagesOrWhole packages, m.Avoids p.root) ∧
        ∀ file ∈ placements (packagesOrWhole packages) entries, file.Unmarked m := by
  simp only [mem_names_build_iff]
  constructor
  · intro hnames
    refine ⟨fun p hp => hnames _ (Or.inl ⟨p, hp, rfl⟩), fun file hfile => ⟨?_, ?_⟩⟩
    · intro segment hsegment
      exact hnames _ (Or.inr ⟨file, hfile, Or.inl hsegment⟩)
    · intro d hd name hname
      exact hnames _ (Or.inr ⟨file, hfile, Or.inr ⟨d, hd, hname⟩⟩)
  · rintro ⟨hroots, hfiles⟩ name (⟨p, hp, rfl⟩ | ⟨file, hfile, hsegment | ⟨d, hd, hname⟩⟩)
    · exact hroots p hp
    · exact (hfiles file hfile).segments name hsegment
    · exact (hfiles file hfile).declarations d hd name hname

namespace Document

/-- A document under the standard markers, patched with a report. -/
def refresh (existing : Option String) (r : Report) : Outcome :=
  patch existing r.render Markers.standard Markers.standard.scaffold

/-- **A report leaves its own document unchanged exactly if none of its names holds a marker.** The
names are the roots of the packages, the segments of the placed paths, and the declared names of
the placed files; the document does not matter. -/
theorem patch_report_again_iff (existing : Option String) (entries : List SourceFile)
    (packages : List Package) :
    refresh (some (refresh existing (Report.build entries packages)).text)
          (Report.build entries packages) =
        ⟨(refresh existing (Report.build entries packages)).text, false⟩ ↔
      (∀ p ∈ Report.packagesOrWhole packages, Markers.standard.Avoids p.root) ∧
        ∀ file ∈ Report.placements (Report.packagesOrWhole packages) entries,
          file.Unmarked Markers.standard := by
  rw [← Report.names_build_avoid_iff, ← Markers.standard_avoids_render_iff]
  exact patch_again_eq_iff Markers.standard_separable existing _ _

/-- A file with one class, whose only method has a string for its name. -/
def markedFile : SourceFile where
  path := "a.js"
  language := .javascript
  declarations := Outline.extract .javascript <|
    .node "program" none true [] [
      .node "class_declaration" none true [("name", 0), ("body", 1)] [
        .node "type_identifier" (some "C") true [] [],
        .node "class_body" none true [] [
          .node "method_definition" none true [("name", 0)] [
            .node "string" (some "'<!-- END GENERATED CONTENT -->'") true [] []]]]]

/-- The method name closes the region too early, and the second patch changes the document. -/
theorem patch_report_again_marked :
    (refresh (some (refresh none (Report.build [markedFile] [⟨".", .js⟩])).text)
      (Report.build [markedFile] [⟨".", .js⟩])).changed = true := by
  have hmember : "'<!-- END GENERATED CONTENT -->'" ∈
      (Report.build [markedFile] [⟨".", .js⟩]).names := by decide
  have hmarked : ¬ Markers.standard.Avoids "'<!-- END GENERATED CONTENT -->'" :=
    fun h => h.closing (by decide)
  rw [← Bool.not_eq_false]
  intro hsame
  have havoids := (patch_again_changed_iff Markers.standard_separable none _ _).mp hsame
  exact hmarked ((Markers.standard_avoids_render_iff _).mp havoids _ hmember)

end Document

end ProjectOutline
