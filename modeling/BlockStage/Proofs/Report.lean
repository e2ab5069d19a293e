import BlockStage.CommandLine
import BlockStage.Proofs.Failures
import BlockStage.Proofs.IndentedLayout
import BlockStage.Proofs.JsonReadBack
import BlockStage.Proofs.PrototypeWarnings

/-!
What the command line writes. A project that loads is reported in full: every indexed procedure has
one line, targets in load order and codes in increasing order, and the infos of the extensions
follow, whatever the project is. A project that does not load leaves no output at all.
-/

namespace BlockStage

/-! ## What the extensions say about themselves -/

theorem Registry.infos_restart (r : Registry Package) : r.restart.infos = r.infos := by
  simp only [infos, restart, List.map_map]
  apply List.map_congr_left
  intro entry _
  exact Package.info_restart entry.2

namespace CommandLine

/-- The infos of both packages, as they are printed. -/
def infoLines : List String :=
  ["[",
    "  \x7b", "    \"id\": \"jwArray\",", "    \"name\": \"Arrays\",",
    "    \"color1\": \"#ff513d\",", "    \"blocks\": [",
    "      \x7b", "        \"opcode\": \"blank\",", "        \"text\": \"blank array\",",
    "        \"blockType\": \"reporter\",", "        \"blockShape\": \"square\",",
    "        \"forceOutputType\": \"Array\",", "        \"disableMonitor\": true", "      \x7d,",
    "      \x7b", "        \"opcode\": \"test\",", "        \"text\": \"test array\",",
    "        \"blockType\": \"reporter\",", "        \"blockShape\": \"square\",",
    "        \"forceOutputType\": \"Array\",", "        \"disableMonitor\": true", "      \x7d",
    "    ]", "  \x7d,",
    "  \x7b", "    \"id\": \"jwPsychic\",", "    \"name\": \"Psychic\",",
    "    \"color1\": \"#b16bed\",", "    \"blocks\": [",
    "      \x7b", "        \"opcode\": \"tick\",", "        \"text\": \"tick\",",
    "        \"blockType\": \"command\"", "      \x7d,", "      \"---\",",
    "      \x7b", "        \"opcode\": \"boundaries\",",
    "        \"text\": \"set boundaries to [OPTION]\",", "        \"blockType\": \"command\",",
    "        \"arguments\": \x7b", "          \"OPTION\": \x7b",
    "            \"type\": \"string\",", "            \"menu\": \"boundariesOption\"",
    "          \x7d", "        \x7d", "      \x7d,",
    "      \x7b", "        \"opcode\": \"setGravity\",",
    "        \"text\": \"set gravity to [VECTOR]\",", "        \"blockType\": \"command\",",
    "        \"arguments\": \x7b", "          \"VECTOR\": \x7b",
    "            \"shape\": \"square\",", "            \"check\": [", "              \"Vector\"",
    "            ]", "          \x7d", "        \x7d", "      \x7d,",
    "      \x7b", "        \"opcode\": \"getGravity\",", "        \"text\": \"gravity\",",
    "        \"blockType\": \"reporter\",", "        \"blockShape\": \"square\",",
    "        \"forceOutputType\": \"Vector\"", "      \x7d,", "      \"---\",",
    "      \x7b", "        \"opcode\": \"enablePhysics\",",
    "        \"text\": \"enable physics as [OPTION]\",", "        \"blockType\": \"command\",",
    "        \"arguments\": \x7b", "          \"OPTION\": \x7b",
    "            \"type\": \"string\",", "            \"menu\": \"enablePhysicsOption\"",
    "          \x7d", "        \x7d,", "        \"filter\": [", "          \"sprite\"", "        ]",
    "      \x7d,",
    "      \x7b", "        \"opcode\": \"disablePhysics\",",
    "        \"text\": \"disable physics\",", "        \"blockType\": \"command\",",
    "        \"filter\": [", "          \"sprite\"", "        ]", "      \x7d,", "      \"---\",",
    "      \x7b", "        \"opcode\": \"setPos\",",
    "        \"text\": \"set position to [VECTOR]\",", "        \"blockType\": \"command\",",
    "        \"arguments\": \x7b", "          \"VECTOR\": \x7b",
    "            \"shape\": \"square\",", "            \"check\": [", "              \"Vector\"",
    "            ]", "          \x7d", "        \x7d,", "        \"filter\": [",
    "          \"sprite\"", "        ]", "      \x7d,",
    "      \x7b", "        \"opcode\": \"getPos\",", "        \"text\": \"position\",",
    "        \"blockType\": \"reporter\",", "        \"blockShape\": \"square\",",
    "        \"forceOutputType\": \"Vector\",", "        \"filter\": [", "          \"sprite\"",
    "        ]", "      \x7d,",
    "      \x7b", "        \"opcode\": \"setVel\",",
    "        \"text\": \"set velocity to [VECTOR]\",", "        \"blockType\": \"command\",",
    "        \"arguments\": \x7b", "          \"VECTOR\": \x7b",
    "            \"shape\": \"square\",", "            \"check\": [", "              \"Vector\"",
    "            ]", "          \x7d", "        \x7d,", "        \"filter\": [",
    "          \"sprite\"", "        ]", "      \x7d,",
    "      \x7b", "        \"opcode\": \"getVel\",", "        \"text\": \"velocity\",",
    "        \"blockType\": \"reporter\",", "        \"blockShape\": \"square\",",
    "        \"forceOutputType\": \"Vector\",", "        \"filter\": [", "          \"sprite\"",
    "        ]", "      \x7d,",
    "      \x7b", "        \"opcode\": \"setRot\",",
    "        \"text\": \"set rotation to [ANGLE]\",", "        \"blockType\": \"command\",",
    "        \"arguments\": \x7b", "          \"ANGLE\": \x7b", "            \"type\": \"angle\",",
    "            \"defaultValue\": 90.0", "          \x7d", "        \x7d,",
    "        \"filter\": [", "          \"sprite\"", "        ]", "      \x7d,",
    "      \x7b", "        \"opcode\": \"getRot\",", "        \"text\": \"rotation\",",
    "        \"blockType\": \"reporter\",", "        \"filter\": [", "          \"sprite\"",
    "        ]", "      \x7d,",
    "      \x7b", "        \"opcode\": \"setAngVel\",",
    "        \"text\": \"set angular velocity to [ANGLE]\",", "        \"blockType\": \"command\",",
    "        \"arguments\": \x7b", "          \"ANGLE\": \x7b", "            \"type\": \"angle\",",
    "            \"defaultValue\": 0.0", "          \x7d", "        \x7d,", "        \"filter\": [",
    "          \"sprite\"", "        ]", "      \x7d,",
    "      \x7b", "        \"opcode\": \"getAngVel\",", "        \"text\": \"angular velocity\",",
    "        \"blockType\": \"reporter\",", "        \"filter\": [", "          \"sprite\"",
    "        ]", "      \x7d", "    ],",
    "    \"menus\": \x7b", "      \"boundariesOption\": [", "        \"all\",",
    "        \"floor\",", "        \"none\"", "      ],", "      \"enablePhysicsOption\": [",
    "        \"precise\",", "        \"box\",", "        \"circle\"", "      ]", "    \x7d",
    "  \x7d", "]"]

theorem infos_standard :
    Package.standard.restart.infosJson.indented = "\n".intercalate infoLines := by
  have hinfos : Package.standard.infos = [Arrays.info, Physics.info] := rfl
  have hlines : (Json.list ([Arrays.info, Physics.info].map ExtensionInfo.toJson)).lines =
      infoLines := by decide +kernel
  rw [Registry.infosJson, Registry.infos_restart, hinfos, Json.indented_eq, hlines]

/-! ## The lines of a target -/

/-- The line for one procedure: target, code, parameter names in brackets, and a mark for warp. -/
def IsProcedureLine (t : Target) (code line : String) : Prop :=
  ∃ s, t.blocks.signature? code = some s ∧
    ((s.warp = true ∧
        line = t.name ++ "\t" ++ code ++ "\t[" ++ ", ".intercalate s.names ++ "]" ++ " (warp)") ∨
      (s.warp = false ∧
        line = t.name ++ "\t" ++ code ++ "\t[" ++ ", ".intercalate s.names ++ "]"))

/-- One line for each indexed code of the target, in increasing order of the codes. -/
def AreTargetLines (t : Target) (lines : List String) : Prop :=
  ∃ codes : List String, codes.Pairwise (fun c d => Text.bytes c < Text.bytes d) ∧
    (∀ code, code ∈ codes ↔ (t.blocks.signature? code).isSome) ∧
    List.Forall₂ (IsProcedureLine t) codes lines

/-- The line without its end. -/
def procedureText (t : Target) (p : String × Signature) : String :=
  t.name ++ "\t" ++ p.1 ++ "\t[" ++ ", ".intercalate p.2.names ++ "]" ++
    (if p.2.warp then " (warp)" else "")

theorem isProcedureLine_of_mem {t : Target} {p : String × Signature}
    (h : p ∈ t.blocks.signatures.toList) : IsProcedureLine t p.1 (procedureText t p) := by
  refine ⟨p.2, Std.ExtTreeMap.mem_toList_iff_getElem?_eq_some.mp h, ?_⟩
  cases hwarp : p.2.warp with
  | true => exact .inl ⟨rfl, by simp [procedureText, hwarp]⟩
  | false => exact .inr ⟨rfl, by simp [procedureText, hwarp]⟩

theorem targetLines_eq (t : Target) :
    targetLines t = (t.blocks.signatures.toList.map (procedureText t)).map (· ++ "\n") := by
  rw [targetLines, List.map_map]
  rfl

theorem codes_ordered (bs : Blocks) :
    bs.codes.Pairwise fun c d => Text.bytes c < Text.bytes d := by
  apply Std.ExtTreeMap.ordered_keys.imp
  intro c d hlt
  rw [Text.bytes_lt_bytes_iff]
  exact (compare_eq_lt_iff c d).mp hlt

theorem areTargetLines (t : Target) :
    AreTargetLines t (t.blocks.signatures.toList.map (procedureText t)) := by
  refine ⟨t.blocks.codes, codes_ordered t.blocks, Blocks.mem_codes_iff t.blocks, ?_⟩
  rw [Blocks.codes, ← Std.ExtTreeMap.map_fst_toList_eq_keys, List.forall₂_map_left_iff,
    List.forall₂_map_right_iff, List.forall₂_same]
  intro p hp
  exact isProcedureLine_of_mem hp

theorem IsProcedureLine.unique (t : Target) : Relator.RightUnique (IsProcedureLine t) := by
  rintro code line line' ⟨s, hs, hline⟩ ⟨s', hs', hline'⟩
  obtain rfl := Option.some.inj (hs.symm.trans hs')
  rcases hline with ⟨hwarp, rfl⟩ | ⟨hwarp, rfl⟩ <;>
    rcases hline' with ⟨hwarp', rfl⟩ | ⟨hwarp', rfl⟩ <;> simp_all

/-- The container leaves no choice of the lines. -/
theorem AreTargetLines.unique {t : Target} {lines lines' : List String}
    (h : AreTargetLines t lines) (h' : AreTargetLines t lines') : lines = lines' := by
  obtain ⟨codes, hordered, hmem, hlines⟩ := h
  obtain ⟨codes', hordered', hmem', hlines'⟩ := h'
  have hne {c d : String} (hlt : Text.bytes c < Text.bytes d) : c ≠ d := by
    rintro rfl
    exact List.lt_irrefl _ hlt
  have hperm : codes.Perm codes' :=
    (List.perm_ext_iff_of_nodup (hordered.imp hne) (hordered'.imp hne)).mpr fun code => by
      rw [hmem, hmem']
  obtain rfl : codes = codes' := hperm.eq_of_pairwise
    (fun c d _ _ hlt hgt => absurd hgt (List.lt_asymm hlt)) hordered hordered'
  exact (IsProcedureLine.unique t).forall₂ hlines hlines'

/-! ## The report -/

theorem flatMap_targetLines (targets : List Target) :
    ∃ sections, List.Forall₂ AreTargetLines targets sections ∧
      targets.flatMap targetLines = sections.flatten.map (· ++ "\n") := by
  induction targets with
  | nil => exact ⟨[], .nil, rfl⟩
  | cons t targets ih =>
    obtain ⟨sections, hsections, hlines⟩ := ih
    refine ⟨_ :: sections, .cons (areTargetLines t) hsections, ?_⟩
    rw [List.flatMap_cons, List.flatten_cons, List.map_append, hlines, targetLines_eq]

/-- **What is printed.** A text that loads gives exit code 0, and the output is the lines of the
targets in load order, then the infos; any other text, or none, gives exit code 1 and no output. -/
theorem run_output (text : Option String) :
    (∀ p warnings, text.map (Project.load {}) = some (.ok (p, warnings)) →
      (run text).exitCode = 0 ∧
        ∃ sections, List.Forall₂ AreTargetLines p.targets sections ∧
          (run text).output =
            String.join (sections.flatten.map (· ++ "\n")) ++
              "\n".intercalate infoLines ++ "\n") ∧
    ((∀ p warnings, text.map (Project.load {}) ≠ some (.ok (p, warnings))) →
      (run text).exitCode = 1 ∧ (run text).output = "") := by
  cases text with
  | none =>
    refine ⟨?_, fun _ => ⟨rfl, rfl⟩⟩
    intro p warnings hload
    cases hload
  | some text =>
    rw [Option.map_some]
    cases hload : Project.load {} text with
    | error e =>
      have hrun : run (some text) = ⟨1, "", Project.loadErrorMessage e⟩ := by
        simp only [run, hload]
      refine ⟨?_, fun _ => by rw [hrun]; exact ⟨rfl, rfl⟩⟩
      intro p warnings hok
      cases hok
    | ok loaded =>
      obtain ⟨p, warnings⟩ := loaded
      have hrun : run (some text) = ⟨0, report p Package.standard.restart, ""⟩ := by
        simp only [run, hload]
      constructor
      · intro p' warnings' hok
        cases hok
        obtain ⟨sections, hsections, hlines⟩ := flatMap_targetLines p.targets
        refine ⟨by rw [hrun], sections, hsections, ?_⟩
        rw [hrun, report, hlines, infos_standard]
      · intro hnone
        exact absurd rfl (hnone p warnings)

/-- A block that defines a procedure, and the prototype that stands in it. -/
def definition (hat prototype code ids names warp : String) : List (String × Json) :=
  [(hat, .object [
      ("opcode", .text "procedures_definition"), ("topLevel", .bool true),
      ("inputs", .object [("custom_block", .list [.integer 1, .text prototype])])]),
    (prototype, .object [
      ("opcode", .text "procedures_prototype"), ("parent", .text hat),
      ("mutation", .object [("proccode", .text code), ("argumentids", .text ids),
        ("argumentnames", .text names), ("argumentdefaults", .text "[]"),
        ("warp", .text warp)])])]

/-- A cat with two procedures, the later code first, and a stage without any. -/
def twoProcedures : Json :=
  .object [("targets", .list [
    .object [("isStage", .bool false), ("name", .text "Cat"),
      ("blocks", .object (
        definition "hat" "proto" "hop" "[]" "[]" "false" ++
        definition "hat2" "proto2" "go %s" "[\"a\"]" "[\"x\"]" "true"))],
    .object [("isStage", .bool true), ("name", .text "Stage")]])]

theorem run_output_twoProcedures :
    (run (some twoProcedures.compact)).exitCode = 0 ∧
      (run (some twoProcedures.compact)).output =
        "Cat\tgo %s\t[x] (warp)\nCat\thop\t[]\n" ++ "\n".intercalate infoLines ++ "\n" := by
  let view (t : Target) := t.blocks.signatures.toList.map (procedureText t)
  have hexact : twoProcedures.Exact := by
    simp [twoProcedures, definition, Json.Exact, Json.ExactItems, Json.ExactMembers, Json.Fits]
  have hload : ((Project.load {} twoProcedures.compact).toOption.map Prod.fst).map
      (fun p => p.targets.map view) =
        some [["Cat\tgo %s\t[x] (warp)", "Cat\thop\t[]"], []] := by
    rw [Project.load, Json.decodeText_compact _ _ hexact]
    decide +kernel
  obtain ⟨p, warnings, hp, hview⟩ := Project.exists_loaded hload
  obtain ⟨hcode, sections, hsections, houtput⟩ :=
    (run_output (some twoProcedures.compact)).1 p warnings (by rw [Option.map_some, hp])
  have hlines : List.Forall₂ AreTargetLines p.targets (p.targets.map view) := by
    rw [List.forall₂_map_right_iff, List.forall₂_same]
    exact fun t _ => areTargetLines t
  have hunique : Relator.RightUnique AreTargetLines := fun _ _ _ h h' => h.unique h'
  rw [hunique.forall₂ hsections hlines, hview] at houtput
  exact ⟨hcode, houtput⟩

end CommandLine

end BlockStage
