import Assay.Proofs.Run.Verdict
import Assay.Proofs.Text.Replacement

namespace Assay.Workspace

open Assay.Text

def dictionary (w : Workspace) : Dictionary :=
  [("\x7bout\x7d".toList, w.directory.text.toList),
    ("\x7bdata\x7d".toList, w.configuration.dataDir.text.toList),
    ("\x7bparams\x7d".toList, w.configuration.parameterDir.text.toList),
    ("\x7bexpected\x7d".toList, w.configuration.expectedDir.text.toList)]

/-- No placeholder that is replaced later can reach into a directory that was inserted before. -/
def Settled (w : Workspace) : Prop :=
  w.dictionary.Pairwise fun earlier later => Inert later.1 earlier.2

theorem dictionary_eq (w : Workspace) :
    w.dictionary = w.placeholders.map fun p => (p.1, p.2.text.toList) := by
  have hnames : ["\x7bout\x7d", "\x7bdata\x7d", "\x7bparams\x7d", "\x7bexpected\x7d"].map String.toList =
      ["out", "data", "params", "expected"].map placeholder := by decide
  simp only [List.map_cons, List.map_nil, List.cons.injEq, and_true] at hnames
  obtain ⟨hout, hdata, hparams, hexpected⟩ := hnames
  rw [dictionary, hout, hdata, hparams, hexpected, placeholders]
  rfl

theorem delimited_dictionary (w : Workspace) : ∀ e ∈ w.dictionary, Delimited e.1 := by
  have hname : ∀ name ∈ ["out", "data", "params", "expected"], '\x7b' ∉ name.toList ∧
      '\x7d' ∉ name.toList := by decide
  intro e he
  rw [dictionary_eq, placeholders, List.mem_map] at he
  obtain ⟨p, hp, rfl⟩ := he
  simp only [List.mem_cons, List.not_mem_nil, or_false] at hp
  rcases hp with rfl | rfl | rfl | rfl
  all_goals exact ⟨_, rfl, hname _ (by simp)⟩

/-- Directories without braces, none of which is a part of a later placeholder, are not expanded again. -/
theorem settled_of_plain {w : Workspace} (h : w.dictionary.Pairwise fun earlier later =>
    '\x7b' ∉ earlier.2 ∧ '\x7d' ∉ earlier.2 ∧ ¬earlier.2 <:+: later.1) : w.Settled := by
  refine h.imp_of_mem fun _ hlater hplain => ?_
  obtain ⟨hopen, hclose, hpart⟩ := hplain
  exact inert_of_plain (w.delimited_dictionary _ hlater) hopen hclose hpart

/-- The expanded template is the template with all placeholders replaced by one scan. -/
theorem expand_eq_substitute {w : Workspace} (h : w.Settled) (template : String) :
    w.expand template = String.ofList (substitute w.dictionary template.toList) := by
  rw [← foldl_replaceAll w.delimited_dictionary h, dictionary_eq, List.foldl_map, expand]

def sideBySide (name : String) : Workspace :=
  { Scenario.greeting with name := name }.workspace Scenario.plainSettings

theorem expand_eq_substitute_points : (sideBySide "points").Settled ∧
    (sideBySide "points").expand "\x7b\x7bout\x7d\x7d/\x7bdata\x7d" =
      String.ofList (substitute (sideBySide "points").dictionary "\x7b\x7bout\x7d\x7d/\x7bdata\x7d".toList) := by
  have hsettled : (sideBySide "points").Settled := settled_of_plain (by decide +kernel)
  exact ⟨hsettled, expand_eq_substitute hsettled _⟩

/-- A scenario may have the name of a placeholder; its output directory is then expanded again. -/
theorem expanded_again : isName "\x7bdata\x7d" = true ∧
    (sideBySide "\x7bdata\x7d").expand "\x7bout\x7d/x" ≠
      String.ofList (substitute (sideBySide "\x7bdata\x7d").dictionary "\x7bout\x7d/x".toList) := by
  decide +kernel

end Assay.Workspace
