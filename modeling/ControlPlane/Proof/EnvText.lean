import ControlPlane.Proof.Texts
import ControlPlane.Provisioner.Files

/-!
# The text of an environment file

What the lines of a file say about a key, and what becomes of it when lines are brought up to date
or appended. Nothing later looks at characters.
-/

namespace ControlPlane.Provisioner

open List

open Python (splitlines Plain)

variable {key other : String} {value line text text' : List Char} {lines : List (List Char)}
  {expected : List (String × List Char)}

def lineValue (key : String) (line : List Char) : Option (List Char) :=
  if (assign key []).isPrefixOf line then some (line.drop (assign key []).length) else none

theorem valuesOf_eq : valuesOf key text = (splitlines text).filterMap (lineValue key) := rfl

theorem lineValue_eq_some : lineValue key line = some value ↔ line = assign key value := by
  have hassign : assign key value = assign key [] ++ value := by simp [assign]
  unfold lineValue
  rw [hassign]
  constructor
  · intro hvalue
    split at hvalue
    · rename_i hprefix
      obtain ⟨rest, rfl⟩ := isPrefixOf_iff_prefix.mp hprefix
      simpa using hvalue
    · cases hvalue
  · rintro rfl
    simp

def PlainKey (key : String) : Prop :=
  '=' ∉ key.toList ∧ Python.strip key.toList = key.toList ∧ Plain key.toList ∧ key.toList ≠ []

instance : Decidable (PlainKey key) := inferInstanceAs (Decidable (_ ∧ _))

theorem lineKey_assign (hkey : PlainKey key) : lineKey (assign key value) = key.toList := by
  have hname : ∀ c ∈ key.toList, (decide (c ≠ '=')) = true := by
    intro c hc
    simpa using fun heq : c = '=' => hkey.1 (heq ▸ hc)
  have htake : (assign key value).takeWhile (· ≠ '=') = key.toList := by
    unfold assign
    rw [takeWhile_append_of_pos hname]
    simp
  rw [lineKey, htake, hkey.2.1]

theorem lineValue_of_lineKey_ne (hkey : PlainKey key) (hne : lineKey line ≠ key.toList) :
    lineValue key line = none := by
  rw [Option.eq_none_iff_forall_ne_some]
  intro value hvalue
  rw [lineValue_eq_some.mp hvalue] at hne
  exact hne (lineKey_assign hkey)

@[simp]
theorem lineValue_assign_self : lineValue key (assign key value) = some value := lineValue_eq_some.mpr rfl

theorem lineValue_assign_of_ne (hkey : PlainKey key) (hother : PlainKey other) (hne : other ≠ key) :
    lineValue key (assign other value) = none := by
  refine lineValue_of_lineKey_ne hkey ?_
  rw [lineKey_assign hother]
  exact fun h => hne (String.toList_inj.mp h)

theorem plain_assign (hkey : PlainKey key) (hvalue : Plain value) : Plain (assign key value) := by
  intro c hc
  rcases mem_append.mp hc with hc | hc
  · exact hkey.2.2.1 c hc
  · rcases mem_cons.mp hc with rfl | hc
    · decide
    · exact hvalue c hc

structure PlainKeys (expected : List (String × List Char)) : Prop where
  plain : ∀ entry ∈ expected, PlainKey entry.1
  nodup : (expected.map Prod.fst).Nodup

theorem convergeLine_of_ne (hne : ∀ entry ∈ expected, entry.1.toList ≠ lineKey line) :
    convergeLine expected line = line := by
  have hfind : expected.find? (fun entry => entry.1.toList = lineKey line) = none := by
    simpa using hne
  rw [convergeLine, hfind]

theorem convergeLine_of_mem (hkeys : PlainKeys expected) (hmem : (key, value) ∈ expected)
    (hline : lineKey line = key.toList) : convergeLine expected line = assign key value := by
  unfold convergeLine
  cases hfind : expected.find? fun entry => entry.1.toList = lineKey line with
  | none =>
    rw [find?_eq_none] at hfind
    exact absurd hline.symm (by simpa using hfind _ hmem)
  | some entry =>
    have hentry : entry.1.toList = lineKey line := by simpa using find?_some hfind
    have hname : entry.1 = key := String.toList_inj.mp (hentry.trans hline)
    have heq : entry = (key, value) :=
      inj_on_of_nodup_map hkeys.nodup (mem_of_find?_eq_some hfind) hmem hname
    rw [heq]

theorem lineKey_convergeLine (hkeys : PlainKeys expected) :
    lineKey (convergeLine expected line) = lineKey line := by
  unfold convergeLine
  cases hfind : expected.find? fun entry => entry.1.toList = lineKey line with
  | none => rfl
  | some entry =>
    have hentry : entry.1.toList = lineKey line := by simpa using find?_some hfind
    rw [← hentry]
    exact lineKey_assign (hkeys.plain entry (mem_of_find?_eq_some hfind))

theorem lineValue_convergeLine (hkeys : PlainKeys expected) (hkey : PlainKey key)
    (hnot : key ∉ expected.map Prod.fst) :
    lineValue key (convergeLine expected line) = lineValue key line := by
  by_cases hline : lineKey line = key.toList
  · rw [convergeLine_of_ne]
    intro entry hentry hsame
    have hname : entry.1 = key := String.toList_inj.mp (hsame.trans hline)
    exact hnot (hname ▸ mem_map_of_mem hentry)
  · rw [lineValue_of_lineKey_ne hkey hline, lineValue_of_lineKey_ne hkey]
    rwa [lineKey_convergeLine hkeys]

def missing (expected : List (String × List Char)) (lines : List (List Char)) :
    List (String × List Char) :=
  expected.filter fun entry => !(lines.map lineKey).contains entry.1.toList

theorem converged_eq : converged expected lines =
    lines.map (convergeLine expected) ++ (missing expected lines).map fun entry => assign entry.1 entry.2 :=
  rfl

theorem filterMap_converged_of_notMem (hkeys : PlainKeys expected) (hkey : PlainKey key)
    (hnot : key ∉ expected.map Prod.fst) :
    (converged expected lines).filterMap (lineValue key) = lines.filterMap (lineValue key) := by
  have hmissing : ((missing expected lines).map fun entry => assign entry.1 entry.2).filterMap
      (lineValue key) = [] := by
    rw [filterMap_eq_nil_iff]
    intro line hline
    obtain ⟨entry, hentry, rfl⟩ := mem_map.mp hline
    have hmem := (mem_filter.mp hentry).1
    refine lineValue_assign_of_ne hkey (hkeys.plain entry hmem) fun hname => hnot ?_
    exact hname ▸ mem_map_of_mem hmem
  rw [converged_eq, filterMap_append, hmissing, append_nil, filterMap_map]
  exact filterMap_congr fun line _ => lineValue_convergeLine hkeys hkey hnot

def keyCount (key : String) (lines : List (List Char)) : Nat := (lines.map lineKey).count key.toList

theorem keyCount_append (more : List (List Char)) :
    keyCount key (lines ++ more) = keyCount key lines + keyCount key more := by
  simp [keyCount]

variable {values : List (String × List Char)}

theorem keyCount_entries (hkeys : PlainKeys values) :
    keyCount key (values.map fun entry => assign entry.1 entry.2) =
      if key ∈ values.map Prod.fst then 1 else 0 := by
  have hnames : ((values.map fun entry => assign entry.1 entry.2).map lineKey) =
      (values.map Prod.fst).map String.toList := by
    rw [map_map, map_map]
    exact map_congr_left fun entry hentry => lineKey_assign (hkeys.plain entry hentry)
  have hinj : Function.Injective String.toList := fun _ _ h => String.toList_inj.mp h
  rw [keyCount, hnames, count_map_of_injective _ _ hinj, hkeys.nodup.count]

theorem PlainKeys.missing (hkeys : PlainKeys expected) : PlainKeys (missing expected lines) where
  plain entry hentry := hkeys.plain entry (mem_filter.mp hentry).1
  nodup := hkeys.nodup.sublist (filter_sublist.map Prod.fst)

theorem keyCount_missing (hkeys : PlainKeys expected) (hmem : key ∈ expected.map Prod.fst) :
    keyCount key ((missing expected lines).map fun entry => assign entry.1 entry.2) =
      1 - keyCount key lines := by
  have hiff : key ∈ (missing expected lines).map Prod.fst ↔ keyCount key lines = 0 := by
    obtain ⟨entry, hentry, rfl⟩ := mem_map.mp hmem
    rw [keyCount, count_eq_zero]
    constructor
    · intro h
      obtain ⟨found, hfound, hname⟩ := mem_map.mp h
      have hnot := (mem_filter.mp hfound).2
      rw [hname] at hnot
      simpa using hnot
    · intro hnot
      exact mem_map_of_mem (mem_filter.mpr ⟨hentry, by simpa using hnot⟩)
  rw [keyCount_entries hkeys.missing]
  by_cases hzero : keyCount key lines = 0
  · rw [if_pos (hiff.mpr hzero), hzero]
  · rw [if_neg (mt hiff.mp hzero)]
    omega

theorem keyCount_converged (hkeys : PlainKeys expected) (hmem : key ∈ expected.map Prod.fst) :
    keyCount key (converged expected lines) = max 1 (keyCount key lines) := by
  have hmapped : keyCount key (lines.map (convergeLine expected)) = keyCount key lines := by
    unfold keyCount
    rw [map_map]
    congr 1
    exact map_congr_left fun line _ => lineKey_convergeLine hkeys
  rw [converged_eq, keyCount_append, hmapped, keyCount_missing hkeys hmem]
  omega

theorem filterMap_eq_replicate (hkey : PlainKey key)
    (hlines : ∀ line ∈ lines, lineKey line = key.toList → line = assign key value) :
    lines.filterMap (lineValue key) = List.replicate (keyCount key lines) value := by
  induction lines with
  | nil => rfl
  | cons line lines ih =>
    have hrest := ih fun other hother => hlines other (mem_cons_of_mem line hother)
    have hcount : keyCount key (line :: lines) =
        keyCount key lines + if lineKey line = key.toList then 1 else 0 := by
      simp [keyCount, count_cons]
    by_cases hline : lineKey line = key.toList
    · rw [hcount, if_pos hline, hlines line mem_cons_self hline,
        filterMap_cons_some lineValue_assign_self, hrest, replicate_succ]
    · rw [hcount, if_neg hline, filterMap_cons_none (lineValue_of_lineKey_ne hkey hline), hrest,
        Nat.add_zero]

theorem eq_assign_of_entry (hkeys : PlainKeys values) (hmem : (key, value) ∈ values)
    (hline : line ∈ values.map fun entry => assign entry.1 entry.2)
    (hkey : lineKey line = key.toList) : line = assign key value := by
  obtain ⟨entry, hentry, rfl⟩ := mem_map.mp hline
  rw [lineKey_assign (hkeys.plain entry hentry)] at hkey
  have heq : entry = (key, value) :=
    inj_on_of_nodup_map hkeys.nodup hentry hmem (String.toList_inj.mp hkey)
  rw [heq]

theorem filterMap_converged_of_mem (hkeys : PlainKeys expected) (hmem : (key, value) ∈ expected) :
    (converged expected lines).filterMap (lineValue key) =
      List.replicate (max 1 (keyCount key lines)) value := by
  have hname : key ∈ expected.map Prod.fst := mem_map_of_mem (f := Prod.fst) hmem
  rw [← keyCount_converged hkeys hname]
  refine filterMap_eq_replicate (hkeys.plain _ hmem) fun line hline hkey => ?_
  rcases mem_append.mp hline with hline | hline
  · obtain ⟨old, _, rfl⟩ := mem_map.mp hline
    rw [lineKey_convergeLine hkeys] at hkey
    exact convergeLine_of_mem hkeys hmem hkey
  · have hsub : ∀ entry ∈ missing expected lines, entry ∈ expected := fun entry hentry =>
      (mem_filter.mp hentry).1
    exact eq_assign_of_entry hkeys hmem (map_subset _ hsub hline) hkey

variable {expected' : List (String × List Char)}

theorem convergeLine_assign (hkeys : PlainKeys expected) (hmem : key ∈ expected.map Prod.fst)
    (hline : lineKey line = key.toList) :
    convergeLine expected line = convergeLine expected (assign key []) := by
  obtain ⟨entry, hentry, rfl⟩ := mem_map.mp hmem
  rw [convergeLine_of_mem hkeys hentry hline,
    convergeLine_of_mem hkeys hentry (lineKey_assign (hkeys.plain entry hentry))]

theorem convergeLine_convergeLine (hkeys : PlainKeys expected) (hkeys' : PlainKeys expected')
    (hnames : expected'.map Prod.fst = expected.map Prod.fst) :
    convergeLine expected (convergeLine expected' line) = convergeLine expected line := by
  by_cases hkey : ∃ key ∈ expected'.map Prod.fst, key.toList = lineKey line
  · obtain ⟨key, hmem, hline⟩ := hkey
    rw [hnames] at hmem
    rw [convergeLine_assign hkeys hmem hline.symm,
      convergeLine_assign hkeys hmem ((lineKey_convergeLine hkeys').trans hline.symm)]
  · have hkept : convergeLine expected' line = line :=
      convergeLine_of_ne fun entry hentry hline => hkey ⟨entry.1, mem_map_of_mem hentry, hline⟩
    rw [hkept]

theorem missing_of_keyCount (hall : ∀ key ∈ expected.map Prod.fst, 1 ≤ keyCount key lines) :
    missing expected lines = [] := by
  rw [missing, filter_eq_nil_iff]
  intro entry hentry hnot
  have hcount := hall entry.1 (mem_map_of_mem hentry)
  rw [keyCount, Nat.one_le_iff_ne_zero, Ne, count_eq_zero, not_not] at hcount
  simp [hcount] at hnot

theorem names_missing : (missing expected lines).map Prod.fst =
    (expected.map Prod.fst).filter fun key => !(lines.map lineKey).contains key.toList := by
  rw [filter_map]
  rfl

/-- What the lines were brought up to before makes no difference. -/
theorem converged_converged (hkeys : PlainKeys expected) (hkeys' : PlainKeys expected')
    (hnames : expected'.map Prod.fst = expected.map Prod.fst) :
    converged expected (converged expected' lines) = converged expected lines := by
  have hadded : ∀ {values}, PlainKeys values →
      values.map Prod.fst ⊆ expected.map Prod.fst →
      (values.map fun entry => assign entry.1 entry.2).map (convergeLine expected) =
        (values.map Prod.fst).map fun key => convergeLine expected (assign key []) := by
    intro values hvalues hsub
    rw [map_map, map_map]
    refine map_congr_left fun entry hentry => ?_
    exact convergeLine_assign hkeys (hsub (mem_map_of_mem hentry))
      (lineKey_assign (hvalues.plain entry hentry))
  have hsub : (missing expected lines).map Prod.fst ⊆ expected.map Prod.fst :=
    map_subset _ (filter_subset_self _)
  have hsub' : (missing expected' lines).map Prod.fst ⊆ expected.map Prod.fst :=
    hnames ▸ map_subset _ (filter_subset_self _)
  have hkept : ((missing expected lines).map fun entry => assign entry.1 entry.2).map
      (convergeLine expected) = (missing expected lines).map fun entry => assign entry.1 entry.2 := by
    rw [map_map]
    refine map_congr_left fun entry hentry => ?_
    have hmem := (mem_filter.mp hentry).1
    exact convergeLine_of_mem hkeys hmem (lineKey_assign (hkeys.plain entry hmem))
  have hnone : missing expected (converged expected' lines) = [] := by
    apply missing_of_keyCount
    intro key hkey
    rw [keyCount_converged hkeys' (hnames ▸ hkey)]
    omega
  calc
    converged expected (converged expected' lines) =
        (converged expected' lines).map (convergeLine expected) := by
      rw [converged_eq, hnone, map_nil, append_nil]
    _ = lines.map (convergeLine expected) ++ ((missing expected' lines).map Prod.fst).map
        fun key => convergeLine expected (assign key []) := by
      rw [converged_eq, map_append, map_map, hadded hkeys'.missing hsub']
      congr 1
      exact map_congr_left fun line _ => convergeLine_convergeLine hkeys hkeys' hnames
    _ = converged expected lines := by
      rw [names_missing, hnames, ← names_missing, ← hadded hkeys.missing hsub, hkept, converged_eq]

theorem converged_of_mem (hkeys : PlainKeys expected)
    (hvalues : PlainKeys values) (hsub : expected ⊆ values) :
    converged expected (values.map fun entry => assign entry.1 entry.2) =
      values.map fun entry => assign entry.1 entry.2 := by
  have hnone : missing expected (values.map fun entry => assign entry.1 entry.2) = [] := by
    apply missing_of_keyCount
    intro key hkey
    rw [keyCount_entries hvalues, if_pos (map_subset _ hsub hkey)]
  rw [converged_eq, hnone, map_nil, append_nil, map_map]
  refine map_congr_left fun entry hentry => ?_
  have hline : lineKey (assign entry.1 entry.2) = entry.1.toList :=
    lineKey_assign (hvalues.plain entry hentry)
  by_cases hmem : entry.1 ∈ expected.map Prod.fst
  · obtain ⟨same, hsame, hname⟩ := mem_map.mp hmem
    have heq : same = entry := inj_on_of_nodup_map hvalues.nodup (hsub hsame) hentry hname
    exact convergeLine_of_mem hkeys (heq ▸ hsame) hline
  · refine convergeLine_of_ne fun same hsame hname => hmem ?_
    rw [hline] at hname
    exact String.toList_inj.mp hname ▸ mem_map_of_mem hsame

theorem plain_converged (hkeys : PlainKeys expected) (hvalues : ∀ entry ∈ expected, Plain entry.2)
    (hlines : ∀ line ∈ lines, Plain line) : ∀ line ∈ converged expected lines, Plain line := by
  have hassign : ∀ entry ∈ expected, Plain (assign entry.1 entry.2) := fun entry hentry =>
    plain_assign (hkeys.plain entry hentry) (hvalues entry hentry)
  intro line hline
  rcases mem_append.mp hline with hline | hline
  · obtain ⟨old, hold, rfl⟩ := mem_map.mp hline
    unfold convergeLine
    cases hfind : expected.find? fun entry => entry.1.toList = lineKey old with
    | none => exact hlines old hold
    | some entry => exact hassign entry (mem_of_find?_eq_some hfind)
  · obtain ⟨entry, hentry, rfl⟩ := mem_map.mp hline
    exact hassign entry (mem_filter.mp hentry).1

theorem joinLines_eq (hlines : lines ≠ []) : joinLines lines = lines.flatMap (· ++ ['\n']) := by
  induction lines with
  | nil => exact absurd rfl hlines
  | cons line lines ih =>
    cases lines with
    | nil => simp [joinLines]
    | cons next lines =>
      have hrest := ih (by simp)
      unfold joinLines at hrest ⊢
      rw [flatMap_cons, ← hrest]
      simp [intercalate, intersperse]

theorem splitlines_joinLines (hne : lines ≠ []) (hlines : ∀ line ∈ lines, Plain line) :
    splitlines (joinLines lines) = lines := by
  rw [joinLines_eq hne, Python.splitlines_flatMap hlines]

theorem splitlines_envText (hkeys : PlainKeys values) (hvalues : ∀ entry ∈ values, Plain entry.2) :
    splitlines (envText values) = values.map fun entry => assign entry.1 entry.2 := by
  have hlines : envText values = (values.map fun entry => assign entry.1 entry.2).flatMap (· ++ ['\n']) := by
    rw [envText, flatMap_map]
  rw [hlines]
  refine Python.splitlines_flatMap fun line hline => ?_
  obtain ⟨entry, hentry, rfl⟩ := mem_map.mp hline
  exact plain_assign (hkeys.plain entry hentry) (hvalues entry hentry)

theorem valuesOf_envText (hkeys : PlainKeys values) (hvalues : ∀ entry ∈ values, Plain entry.2)
    (hmem : (key, value) ∈ values) : valuesOf key (envText values) = [value] := by
  have hname : key ∈ values.map Prod.fst := mem_map_of_mem (f := Prod.fst) hmem
  have hcount : keyCount key (values.map fun entry => assign entry.1 entry.2) = 1 := by
    rw [keyCount_entries hkeys, if_pos hname]
  have hreplicate : (values.map fun entry => assign entry.1 entry.2).filterMap (lineValue key) =
      replicate _ value :=
    filterMap_eq_replicate (hkeys.plain _ hmem) fun line hline => eq_assign_of_entry hkeys hmem hline
  rw [valuesOf_eq, splitlines_envText hkeys hvalues, hreplicate, hcount]
  rfl

def appended (key : String) (value text : List Char) : List Char :=
  (if text.getLast? = some '\n' then text else text ++ ['\n']) ++ assign key value ++ ['\n']

theorem splitlines_appended (hkey : PlainKey key) (hvalue : Plain value) :
    ∃ gap, (gap = [] ∨ gap = [[]]) ∧
      splitlines (appended key value text) = splitlines text ++ gap ++ [assign key value] := by
  have hline : splitlines (assign key value ++ ['\n']) = [assign key value] :=
    Python.splitlines_line (plain_assign hkey hvalue)
  have hbehind : ∀ before : List Char, splitlines (before ++ ['\n'] ++ assign key value ++ ['\n']) =
      splitlines (before ++ ['\n']) ++ [assign key value] := by
    intro before
    rw [append_assoc, append_assoc, singleton_append, Python.splitlines_append, hline]
  unfold appended
  split
  · rename_i hlast
    obtain ⟨before, rfl⟩ := getLast?_eq_some_iff.mp hlast
    exact ⟨[], .inl rfl, by rw [hbehind, append_nil]⟩
  · rcases Python.splitlines_concat text with hsame | hgap
    · exact ⟨[], .inl rfl, by rw [hbehind, hsame, append_nil]⟩
    · exact ⟨[[]], .inr rfl, by rw [hbehind, hgap]⟩

end ControlPlane.Provisioner
