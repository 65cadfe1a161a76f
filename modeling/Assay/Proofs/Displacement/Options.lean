import Assay.Proofs.Displacement.Calls
import Assay.Proofs.Pairs
import Assay.Proofs.Text.Blank
import Assay.Proofs.Text.Utf8

namespace Assay

open Text

/-- A text on a line of its own is accepted where exactly this text is expected. -/
theorem exactText_line (stream text : String) :
    (StreamExpectation.exact text).check stream (Utf8.ofString (Displacement.linesText [text])) = .pass := by
  have htrim : trim (Displacement.linesText [text]).toList = trim text.toList := by
    have hline : (Displacement.linesText [text]).toList = text.toList ++ ['\n'] := by
      simp [Displacement.linesText]
    rw [hline]
    apply trim_append_blanks
    intro c hc
    rw [List.mem_singleton.mp hc]
    rfl
  rw [StreamExpectation.check, Comparison.exactText, Utf8.ofString, Utf8.decodeLossy_encode, htrim]
  exact if_pos (beq_self_eq_true _)

namespace Displacement

open Work

variable {flaw : Option Flaw} {pairs pairs' : List (String × String)} {key : String} {t : FileTree}

section Reading

def argsOf (pairs : List (String × String)) : List String :=
  pairs.flatMap fun option => [option.1, option.2]

/-- The keys that ask for a text and for nothing else when they come first. -/
def bannerKeys : List String :=
  ["--help", "-help", "--version", "--extended-version"]

/-- A call that is made of options: there are some, their keys start with a dash, and the first does not ask for
a text only. -/
structure IsCall (pairs : List (String × String)) : Prop where
  keys : ∀ option ∈ pairs, option.1.toList.head? = some '-'
  first : ∃ option, pairs.head? = some option ∧ option.1 ∉ bannerKeys

theorem IsCall.of_plain (hkeys : ∀ option ∈ pairs, option.1.toList.head? = some '-') (hne : pairs ≠ [])
    (hplain : ∀ key ∈ pairs.map Prod.fst, key ∉ bannerKeys) : IsCall pairs := by
  obtain ⟨option, rest, rfl⟩ := List.exists_cons_of_ne_nil hne
  exact ⟨hkeys, option, rfl, hplain option.1 (by simp)⟩

theorem readFrom_pair (h : key.toList.head? = some '-') (value : String) (before : List (String × String))
    (rest : List String) :
    Options.readFrom before (key :: value :: rest) = Options.readFrom ((key, value) :: before) rest := by
  rw [Options.readFrom.eq_def]
  exact if_neg (not_not.mpr h)

theorem readFrom_argsOf (h : ∀ option ∈ pairs, option.1.toList.head? = some '-')
    (before : List (String × String)) :
    Options.readFrom before (argsOf pairs) = .ok ⟨pairs.reverse ++ before⟩ := by
  induction pairs generalizing before with
  | nil => rfl
  | cons option rest ih =>
    obtain ⟨hkey, hrest⟩ := List.forall_mem_cons.mp h
    calc Options.readFrom before (argsOf (option :: rest))
        = Options.readFrom (option :: before) (argsOf rest) := readFrom_pair hkey option.2 before (argsOf rest)
      _ = .ok ⟨rest.reverse ++ option :: before⟩ := ih hrest (option :: before)
      _ = .ok ⟨(option :: rest).reverse ++ before⟩ := by simp

theorem banner?_eq_none (h : key ∉ bannerKeys) (rest : List String) : banner? flaw (key :: rest) = none := by
  simp only [bannerKeys, List.mem_cons, List.not_mem_nil, or_false, not_or] at h
  obtain ⟨hhelp, hshort, hversion, hextended⟩ := h
  unfold banner?
  split <;> simp_all

theorem IsCall.banner (h : IsCall pairs) : banner? flaw (argsOf pairs) = none := by
  obtain ⟨option, hhead, hkey⟩ := h.first
  obtain ⟨rest, rfl⟩ := List.head?_eq_some_iff.mp hhead
  exact banner?_eq_none hkey _

/-- A call that is made of options does what they ask for. -/
theorem program_argsOf (h : IsCall pairs) :
    program flaw (argsOf pairs) t =
      (ended (warning flaw) (onTree (workWith flaw ⟨pairs.reverse⟩) t).1,
        (onTree (workWith flaw ⟨pairs.reverse⟩) t).2) := by
  have hread : Options.read (argsOf pairs) = .ok ⟨pairs.reverse⟩ := by
    rw [Options.read, readFrom_argsOf h.keys, List.append_nil]
  rw [program_eq, h.banner, work_eq, hread]
  rfl

theorem has_iff : Options.has ⟨pairs.reverse⟩ key = true ↔ key ∈ pairs.map Prod.fst := by
  rw [Options.has, Options.get?, isSome_lookup, List.map_reverse, List.mem_reverse]

end Reading

section Missing

/-- A call that ends with an error which is accepted where exactly a text is expected, with no output and
without any change. -/
structure RefusedWith (text : String) (t : FileTree) (ended : ProcessResult × FileTree) : Prop where
  exit : ended.1.exit ≠ .code 0
  stdout : ended.1.stdout = []
  stderr : ∀ stream, (StreamExpectation.exact text).check stream ended.1.stderr = .pass
  unchanged : ended.2 = t

/-- The program and the catalog have the same words for an option that is missing. -/
theorem message_missingOption (key : String) :
    (Refusal.missingOption key).message = Catalog.missingOption key := by
  change "ERROR: " ++ ("No CommandLine option \"" ++ key ++ "\" given!") =
    "ERROR: No CommandLine option \"" ++ key ++ "\" given!"
  rw [← String.append_assoc, ← String.append_assoc]
  rfl

theorem message_missingInput : Refusal.missingInput.message = Catalog.missingInput := by
  decide +kernel

theorem ofName?_ne_warning {fault : String} (h : fault ≠ "stderr") : Flaw.ofName? fault ≠ some .warning := by
  intro hwarning
  obtain ⟨front, back, hentries, -⟩ := List.lookup_eq_some_iff.mp hwarning
  have hm : (fault, Flaw.warning) ∈ [("version", Flaw.version), ("shift", .shift), ("points", .points),
      ("stderr", .warning), ("crash", .crash)] := by
    rw [hentries]
    exact List.mem_append_right front List.mem_cons_self
  simp [h] at hm

/-- A call whose options are not sufficient is refused before it does anything. -/
theorem IsCall.refusedWith (h : IsCall pairs) (hflaw : flaw ≠ some .warning) {r : Refusal}
    (hplaces : Options.places ⟨pairs.reverse⟩ = .error r) (t : FileTree) :
    RefusedWith r.message t (program flaw (argsOf pairs) t) := by
  have hwork : onTree (workWith flaw ⟨pairs.reverse⟩) t = (.error (.refused r), t) := by
    rw [workWith_eq, hplaces]
    rfl
  have hwarning : warning flaw = "" := if_neg hflaw
  rw [program_argsOf h, hwork, hwarning]
  refine ⟨?_, rfl, ?_, rfl⟩
  · simp [ended, refusedCode]
  · intro stream
    rw [ended, String.empty_append]
    exact exactText_line stream r.message

theorem required_error (h : key ∉ pairs.map Prod.fst) :
    Options.required ⟨pairs.reverse⟩ key = .error (.missingOption key) := by
  rw [← has_iff, Options.has, Bool.not_eq_true, Option.isSome_eq_false_iff, Option.isNone_iff_eq_none] at h
  rw [Options.required, h]

theorem required_ok (h : key ∈ pairs.map Prod.fst) :
    ∃ value, Options.required ⟨pairs.reverse⟩ key = .ok value := by
  rw [← has_iff, Options.has, Option.isSome_iff_exists] at h
  obtain ⟨value, hvalue⟩ := h
  exact ⟨value, by rw [Options.required, hvalue]⟩

end Missing

section Order

/-- Options in another order make a call, too, if none of them asks for a text only. -/
theorem IsCall.perm (h : IsCall pairs) (hperm : pairs.Perm pairs')
    (hplain : ∀ key ∈ pairs.map Prod.fst, key ∉ bannerKeys) : IsCall pairs' := by
  apply IsCall.of_plain
  · exact fun option hm => h.keys option (hperm.mem_iff.mpr hm)
  · rintro rfl
    obtain ⟨first, hhead, -⟩ := h.first
    rw [hperm.eq_nil] at hhead
    cases hhead
  · exact fun key hm => hplain key ((hperm.map Prod.fst).mem_iff.mpr hm)

/-- What a call does depends on the values of its options only. -/
theorem workWith_congr {o o' : Options} (h : o.get? = o'.get?) : workWith flaw o = workWith flaw o' := by
  have hhas : o.has = o'.has := by
    funext key
    rw [Options.has, Options.has, h]
  have hplaces : o.places = o'.places := by
    simp only [Options.places, Options.required, h, hhas]
  unfold workWith workOn
  simp only [h, hhas, hplaces]

end Order

/-- A call whose options do not suffice is refused with the error that the catalog expects, and options with
different keys mean the same in every order. -/
theorem options_checked {fault : String} (hfault : fault ≠ "stderr") (h : IsCall pairs) (t : FileTree) :
    ("-out" ∉ pairs.map Prod.fst →
      RefusedWith (Catalog.missingOption "-out") t (program (Flaw.ofName? fault) (argsOf pairs) t)) ∧
    ("-out" ∈ pairs.map Prod.fst → "-tp" ∉ pairs.map Prod.fst →
      RefusedWith (Catalog.missingOption "-tp") t (program (Flaw.ofName? fault) (argsOf pairs) t)) ∧
    ("-out" ∈ pairs.map Prod.fst → "-tp" ∈ pairs.map Prod.fst →
      (∀ key ∈ ["-in", "-def", "-jac", "-jacmat"], key ∉ pairs.map Prod.fst) →
      RefusedWith Catalog.missingInput t (program (Flaw.ofName? fault) (argsOf pairs) t)) ∧
    ((pairs.map Prod.fst).Nodup → (∀ key ∈ pairs.map Prod.fst, key ∉ bannerKeys) →
      ∀ pairs', pairs.Perm pairs' →
        program (Flaw.ofName? fault) (argsOf pairs') t = program (Flaw.ofName? fault) (argsOf pairs) t) := by
  have hflaw := ofName?_ne_warning hfault
  refine ⟨?_, ?_, ?_, ?_⟩
  · intro hout
    rw [← message_missingOption]
    apply h.refusedWith hflaw
    rw [Options.places, required_error hout]
  · intro hout htp
    obtain ⟨out, hout⟩ := required_ok hout
    rw [← message_missingOption]
    apply h.refusedWith hflaw
    rw [Options.places, hout]
    dsimp only
    rw [required_error htp]
  · intro hout htp hinputs
    obtain ⟨out, hout⟩ := required_ok hout
    obtain ⟨parameters, htp⟩ := required_ok htp
    have hnone : Options.inputs.any (Options.has ⟨pairs.reverse⟩) = false := by
      rw [List.any_eq_false]
      intro key hkey
      rw [has_iff]
      exact hinputs key hkey
    rw [← message_missingInput]
    apply h.refusedWith hflaw
    rw [Options.places, hout, htp]
    dsimp only
    rw [hnone]
    rfl
  · intro hnodup hplain pairs' hperm
    have h' : IsCall pairs' := h.perm hperm hplain
    have hget : Options.get? ⟨pairs'.reverse⟩ = Options.get? ⟨pairs.reverse⟩ := by
      funext key
      rw [Options.get?, Options.get?]
      have hreverse : pairs'.reverse.Perm pairs.reverse :=
        (List.reverse_perm pairs').trans (hperm.symm.trans (List.reverse_perm pairs).symm)
      apply lookup_perm hreverse
      exact ((hperm.trans (List.reverse_perm pairs').symm).map Prod.fst).nodup_iff.mp hnodup
    rw [program_argsOf h, program_argsOf h', workWith_congr hget]

theorem options_checked_swapped :
    RefusedWith (Catalog.missingOption "-out") ⟨[], []⟩
      (program (Flaw.ofName? "crash") ["-tp", "-out", "-in", "--help"] ⟨[], []⟩) ∧
    RefusedWith (Catalog.missingOption "-tp") ⟨[], []⟩
      (program (Flaw.ofName? "shift") ["-out", "-tp", "-in", "-tp"] ⟨[], []⟩) ∧
    RefusedWith Catalog.missingInput ⟨[], []⟩
      (program (Flaw.ofName? "none") ["-out", "-in", "-tp", "-def"] ⟨[], []⟩) ∧
    program (Flaw.ofName? "points") ["-jac", "all", "-tp", "p.txt", "-out", "out"] ⟨[(["out"], .directory)], []⟩ =
      program (Flaw.ofName? "points") ["-out", "out", "-tp", "p.txt", "-jac", "all"]
        ⟨[(["out"], .directory)], []⟩ := by
  refine ⟨?_, ?_, ?_, ?_⟩
  · have h : IsCall [("-tp", "-out"), ("-in", "--help")] := .of_plain (by decide) (by decide) (by decide)
    exact (options_checked (by decide) h _).1 (by decide)
  · have h : IsCall [("-out", "-tp"), ("-in", "-tp")] := .of_plain (by decide) (by decide) (by decide)
    exact (options_checked (by decide) h _).2.1 (by decide) (by decide)
  · have h : IsCall [("-out", "-in"), ("-tp", "-def")] := .of_plain (by decide) (by decide) (by decide)
    exact (options_checked (by decide) h _).2.2.1 (by decide) (by decide) (by decide)
  · have h : IsCall [("-out", "out"), ("-tp", "p.txt"), ("-jac", "all")] :=
      .of_plain (by decide) (by decide) (by decide)
    exact (options_checked (by decide) h _).2.2.2 (by decide) (by decide)
      [("-jac", "all"), ("-tp", "p.txt"), ("-out", "out")] (by decide)

end Displacement

end Assay
