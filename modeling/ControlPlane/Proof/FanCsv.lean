import ControlPlane.FanCsv

/-!
# Cells that stay cells

Quoting hides what separates rows and cells from the splitters, so they give back the text of every
field with its guard.
-/

namespace ControlPlane.FanCsv

variable {Number : Type}

open List

variable {render : Number → String} {fans : List (FanCard Number)} {field text rest : List Char}
  {value : Option String} {row : List (Option String)}

/-- What a cell says once it is split off. -/
def decoded (value : Option String) : List Char := guarded ((value.map String.toList).getD [])

theorem startsFormula_decoded : startsFormula (decoded value) = false := by
  unfold decoded guarded
  split_ifs with hstarts
  · rfl
  · simpa using hstarts

theorem cell_cases (value : Option String) :
    (∀ c ∈ decoded value, isSpecial c = false) ∧ cell value = decoded value ∨
      cell value = '\x22' :: (doubled (decoded value) ++ ['\x22']) := by
  cases value with
  | none => simp [cell, decoded, guarded, startsFormula]
  | some value =>
    by_cases hspecial : (guarded value.toList).any isSpecial = true
    · exact .inr (if_pos hspecial)
    · exact .inl ⟨by simpa [decoded] using hspecial, if_neg hspecial⟩

section Cells

variable (hrest : rest.head? ≠ some '\x22')
include hrest

theorem splitCells_quoted : splitCells true field (doubled text ++ '\x22' :: rest) =
    splitCells false (field ++ text) rest := by
  induction text generalizing field with
  | nil => cases rest <;> simp_all [doubled, splitCells]
  | cons c text ih => by_cases hc : c = '\x22' <;> simp_all [doubled, splitCells]

theorem splitLines_quoted : splitLines true field (doubled text ++ '\x22' :: rest) =
    splitLines false (field ++ (doubled text ++ ['\x22'])) rest := by
  induction text generalizing field with
  | nil => cases rest <;> simp_all [doubled, splitLines]
  | cons c text ih => by_cases hc : c = '\x22' <;> simp_all [doubled, splitLines]

theorem splitCells_cell :
    splitCells false field (cell value ++ rest) = splitCells false (field ++ decoded value) rest := by
  obtain ⟨hplain, hcell⟩ | hcell := cell_cases value
  · rw [hcell, splitCells_plain hplain]
  · rw [hcell, cons_append, append_assoc, splitCells, singleton_append, splitCells_quoted hrest]

theorem splitLines_cell :
    splitLines false field (cell value ++ rest) = splitLines false (field ++ cell value) rest := by
  obtain ⟨hplain, hcell⟩ | hcell := cell_cases value
  · rw [hcell, splitLines_plain hplain]
  · rw [hcell, cons_append, append_assoc, splitLines, singleton_append, splitLines_quoted hrest]
    simp

end Cells

theorem line_cons_cons {next : Option String} :
    line (value :: next :: row) = cell value ++ ',' :: line (next :: row) := by
  simp [line, intercalate_cons_cons]

theorem splitCells_line :
    splitCells false field (line (value :: row)) = (field ++ decoded value) :: row.map decoded := by
  induction row generalizing field value with
  | nil => simpa [line, splitCells] using splitCells_cell (by simp : ([] : List Char).head? ≠ some '\x22')
  | cons next row ih =>
    rw [line_cons_cons, splitCells_cell (by simp), splitCells, ih]
    rfl

theorem splitLines_line (hrest : rest.head? ≠ some '\x22') :
    splitLines false field (line (value :: row) ++ rest) =
      splitLines false (field ++ line (value :: row)) rest := by
  induction row generalizing field value with
  | nil => simpa [line] using splitLines_cell hrest
  | cons next row ih =>
    rw [line_cons_cons, append_assoc, splitLines_cell (by simp), cons_append, splitLines, ih]
    all_goals simp

theorem pushed_line {next : Option String} :
    pushed (line (value :: next :: row)) = [line (value :: next :: row)] := by
  have hkeeps {cs : List Char} (hmem : ',' ∈ cs) : ',' ∈ cs.dropWhile ChatStream.isTrimmed := by
    rw [← takeWhile_append_dropWhile (p := ChatStream.isTrimmed) (l := cs), mem_append] at hmem
    exact hmem.resolve_left fun h => absurd (mem_takeWhile_imp h) (by decide)
  have hcomma : ',' ∈ line (value :: next :: row) := by simp [line_cons_cons]
  have hmem := mem_reverse.mpr (hkeeps (mem_reverse.mpr (hkeeps hcomma)))
  exact if_pos (length_pos_of_mem hmem)

/-- No line of two or more cells is blank, so the document has those it was made of. -/
theorem splitRows_lines {first : List (Option String)} {rows : List (List (Option String))}
    (hrows : ∀ row ∈ first :: rows, ∃ value next cells, row = value :: next :: cells) :
    splitRows (['\r', '\n'].intercalate ((first :: rows).map line)) = (first :: rows).map line := by
  induction rows generalizing first with
  | nil =>
    obtain ⟨value, next, cells, rfl⟩ := hrows first mem_cons_self
    rw [map_singleton, intercalate_singleton, splitRows, ← append_nil (line _), splitLines_line (by simp)]
    simp [splitLines, pushed_line]
  | cons second rows ih =>
    obtain ⟨value, next, cells, rfl⟩ := hrows first mem_cons_self
    have hsecond := ih fun row hrow => hrows row (mem_cons_of_mem _ hrow)
    rw [splitRows, map_cons] at hsecond
    rw [splitRows, map_cons, map_cons, intercalate_cons_cons, append_assoc, splitLines_line (by simp),
      cons_append, cons_append, nil_append, splitLines, nil_append, hsecond, pushed_line]
    rfl

theorem splitRows_fansToCsv (render : Number → String) (fans : List (FanCard Number)) :
    splitRows (fansToCsv render fans) =
      (exportColumns.map some :: fans.map (values render)).map line := by
  have hheader : [','].intercalate (exportColumns.map String.toList) =
      line (exportColumns.map some) := by decide +kernel
  rw [fansToCsv, hheader, ← splitRows_lines, map_cons, map_map]
  · rfl
  · simp [exportColumns, values]

/-- **Exported cells are confined.** Whatever the fields are, the document splits into a header and a
row for each fan, of thirteen cells each; a cell is the guarded text of its field, which does not
begin like a formula. -/
theorem export_confined (render : Number → String) (fans : List (FanCard Number)) :
    (splitRows (fansToCsv render fans)).map splitRow =
      exportColumns.map String.toList :: fans.map (fun fan => (values render fan).map decoded) ∧
    (splitRows (fansToCsv render fans)).length = fans.length + 1 ∧
    (∀ row ∈ splitRows (fansToCsv render fans), (splitRow row).length = 13) ∧
    ∀ fan ∈ fans, ∀ text ∈ (values render fan).map decoded, startsFormula text = false := by
  have hrows := splitRows_fansToCsv render fans
  have hcells : (splitRows (fansToCsv render fans)).map splitRow =
      exportColumns.map String.toList :: fans.map (fun fan => (values render fan).map decoded) := by
    rw [hrows, map_cons, map_map, map_cons, map_map]
    congr 1
    exact map_congr_left fun fan _ => splitCells_line
  refine ⟨hcells, by simp [hrows], fun row hrow => ?_, fun fan _ text htext => ?_⟩
  · have hmem := mem_map_of_mem (f := splitRow) hrow
    rw [hcells] at hmem
    obtain heq | ⟨fan, -, heq⟩ : _ ∨ ∃ fan ∈ fans, _ := by simpa using hmem
    · rw [heq]
      rfl
    · rw [← heq]
      rfl
  · obtain ⟨value, -, rfl⟩ := mem_map.mp htext
    exact startsFormula_decoded

open ChatStream

/-- The texts of a fan that an import reads, a missing one as the empty one. -/
def imported (fan : FanCard Number) : List (List Char) :=
  [fan.id.toList, fan.email.toList, (fan.displayName.map String.toList).getD [],
    (fan.locale.map String.toList).getD []]

/-- What the import of a fan should say. -/
def entryOf (fan : FanCard Number) : FanImportEntry where
  externalId := fan.id.toList
  email := nonempty fan.email.toList
  displayName := nonempty ((fan.displayName.map String.toList).getD [])
  locale := nonempty ((fan.locale.map String.toList).getD [])

theorem trim_guarded (htrimmed : trim text = text) :
    trim (guarded text) = text ∧ startsFormula text = false ∨
      (trim (guarded text)).head? = some '\x27' ∧ startsFormula text = true := by
  unfold guarded
  split_ifs with hstarts
  · refine .inr ⟨?_, hstarts⟩
    have hquote : isTrimmed '\x27' = false := by decide
    simp only [trim, String.reduceToList, cons_append, nil_append, dropWhile_cons, hquote,
      Bool.false_eq_true, if_false, reverse_cons, dropWhile_append]
    split_ifs <;> simp
  · exact .inl ⟨htrimmed, by simpa using hstarts⟩

theorem trim_guarded_eq_iff (htrimmed : trim text = text) :
    trim (guarded text) = text ↔ startsFormula text = false := by
  obtain ⟨heq, hstarts⟩ | ⟨hhead, hstarts⟩ := trim_guarded htrimmed
  · simp [heq, hstarts]
  · rw [hstarts]
    refine iff_of_false (fun heq => ?_) (by simp)
    rw [heq] at hhead
    simp [startsFormula, hhead] at hstarts

theorem trim_guarded_ne_nil (htrimmed : trim text = text) (hne : text ≠ []) :
    trim (guarded text) ≠ [] := by
  obtain ⟨heq, -⟩ | ⟨hhead, -⟩ := trim_guarded htrimmed
  · rwa [heq]
  · rintro hnil
    simp [hnil] at hhead

theorem nonempty_inj {other : List Char} : nonempty text = nonempty other ↔ text = other := by
  unfold nonempty
  split_ifs <;> simp_all

/-- The headers of an export, as an import reads them. -/
def headers : List (List Char) := exportColumns.map String.toList

theorem headers_read (case : LowerCase) :
    (splitRow (line (exportColumns.map some))).map (fun h => case.lower (trim h)) = headers := by
  have hplain : ∀ column ∈ exportColumns, decoded (some column) = column.toList ∧
      trim column.toList = column.toList ∧ (∀ c ∈ column.toList, c.toNat < 128) ∧
      column.toList.map Char.toLower = column.toList := by decide
  have hsplit : splitRow (line (exportColumns.map some)) = (exportColumns.map some).map decoded :=
    splitCells_line
  rw [hsplit, map_map, map_map]
  refine map_congr_left fun column hcolumn => ?_
  obtain ⟨hdecoded, htrim, hascii, hlower⟩ := hplain column hcolumn
  simp only [Function.comp_apply, hdecoded, htrim]
  rw [case.lower_ascii _ hascii, hlower]

structure Importable (fans : List (FanCard Number)) : Prop where
  distinct : (fans.map (·.id)).Nodup
  nonempty : ∀ fan ∈ fans, fan.id ≠ ""
  trimmed : ∀ fan ∈ fans, ∀ text ∈ imported fan, trim text = text

/-- The texts an import reads begin with no character that the export guards. -/
def Unguarded (fan : FanCard Number) : Prop := ∀ text ∈ imported fan, startsFormula text = false

theorem cellAt_line (render : Number → String) (fan : FanCard Number) :
    [Field.externalId, .email, .displayName, .locale].map
        (cellAt headers ((splitRow (line (values render fan))).map trim)) =
      (imported fan).map fun text => trim (guarded text) := by
  have hsplit : splitRow (line (values render fan)) = (values render fan).map decoded :=
    splitCells_line
  rw [hsplit]
  rfl

theorem importRows_eq_iff {row : Nat} {seen : List (List Char)} (hfans : Importable fans)
    (hseen : ∀ fan ∈ fans, fan.id.toList ∉ seen) :
    importRows headers row seen ((fans.map (values render)).map line) = (fans.map entryOf, []) ↔
      ∀ fan ∈ fans, Unguarded fan := by
  induction fans generalizing row seen with
  | nil => simp [importRows]
  | cons fan fans ih =>
    have htrimmed := hfans.trimmed fan mem_cons_self
    have hne : trim (guarded fan.id.toList) ≠ [] := trim_guarded_ne_nil
      (htrimmed _ mem_cons_self) (by simpa using hfans.nonempty fan mem_cons_self)
    have hunguarded : Unguarded fan ↔ ∀ text ∈ imported fan, trim (guarded text) = text :=
      forall₂_congr fun text hmem => (trim_guarded_eq_iff (htrimmed text hmem)).symm
    have hcells := cellAt_line render fan
    simp only [imported, map_cons, map_nil, cons.injEq, and_true, forall_mem_cons, not_mem_nil,
      false_imp_iff, implies_true] at hcells hunguarded
    obtain ⟨hid, hemail, hname, hlocale⟩ := hcells
    have hidentity : identity headers ((splitRow (line (values render fan))).map trim) =
        trim (guarded fan.id.toList) := by
      rw [identity, hid, FanCsv.nonempty, if_neg hne, Option.getD_some]
    rw [forall_mem_cons, hunguarded]
    simp only [map_cons, importRows, hidentity, hne, if_false, hemail, hname, hlocale]
    split_ifs with hmem
    · -- a guarded identity may be that of an earlier fan
      refine iff_of_false (by simp) fun hplain => hseen fan mem_cons_self ?_
      rwa [hplain.1.1] at hmem
    · simp only [entryOf, Prod.mk.injEq, cons.injEq, FanImportEntry.mk.injEq, nonempty_inj, and_assoc]
      refine and_congr_right fun hplain => ?_
      have hdistinct := nodup_cons.mp hfans.distinct
      have hrest : Importable fans := ⟨hdistinct.2, fun f hf => hfans.nonempty f (mem_cons_of_mem _ hf),
        fun f hf => hfans.trimmed f (mem_cons_of_mem _ hf)⟩
      refine and_congr_right fun _ => and_congr_right fun _ => and_congr_right fun _ => ?_
      rw [hplain, ← Prod.mk.injEq]
      refine ih hrest fun other hother => ?_
      rw [mem_cons, not_or]
      refine ⟨fun heq => hdistinct.1 ?_, hseen other (mem_cons_of_mem _ hother)⟩
      exact mem_map.mpr ⟨other, hother, String.toList_inj.mp heq⟩

/-- **When an import gives back what was exported.** Of fans with distinct identities and trimmed
texts exactly those come back as they are whose texts begin with no guarded character: the import does
not take the guard off. -/
theorem import_of_export_iff (case : LowerCase) (render : Number → String) (hfans : Importable fans) :
    ((parseFanCsv case (fansToCsv render fans)).entries = fans.map entryOf ∧
      (parseFanCsv case (fansToCsv render fans)).skipped = []) ↔ ∀ fan ∈ fans, Unguarded fan := by
  have hbom : withoutBom (fansToCsv render fans) = fansToCsv render fans := by
    cases fans <;> rfl
  rw [parseFanCsv, hbom, splitRows_fansToCsv, map_cons]
  dsimp only
  rw [headers_read, ← Prod.mk.injEq]
  exact importRows_eq_iff hfans (by simp)

def asciiCase : LowerCase := ⟨List.map Char.toLower, fun _ _ => rfl⟩

def fanNamed (name : String) : FanCard Nat where
  id := "fan-1"
  email := "fan@example.com"
  displayName := some name
  locale := none
  status := "active"
  activationState := "new"
  consented := true
  qualifiedReferrals := 0
  eventInterests := 0
  attendedEvents := 0
  paidTicketOrders := 0
  createdAt := "2026-01-01T00:00:00Z"
  lastActivityAt := none

theorem import_of_export_iff_named :
    (parseFanCsv asciiCase (fansToCsv toString [fanNamed "Ada, \x22the\x22 fan"])).entries =
      [entryOf (fanNamed "Ada, \x22the\x22 fan")] := by
  have hfans : Importable [fanNamed "Ada, \x22the\x22 fan"] :=
    ⟨by decide, by decide, forall_mem_singleton.mpr (by decide)⟩
  exact ((import_of_export_iff asciiCase toString hfans).mpr
    (forall_mem_singleton.mpr (by decide : ∀ text ∈ imported _, _))).1

/-- The guard comes back as a part of the name. -/
theorem imported_with_guard :
    Importable [fanNamed "+1"] ∧
      (parseFanCsv asciiCase (fansToCsv toString [fanNamed "+1"])).entries.map (·.displayName) =
        [some "'+1".toList] := by
  exact ⟨⟨by decide, by decide, forall_mem_singleton.mpr (by decide +kernel)⟩, by decide +kernel⟩

end ControlPlane.FanCsv
