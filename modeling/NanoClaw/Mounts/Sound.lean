import NanoClaw.Mounts.Security

/-! What a validated mount is known to be, and when the mounts of a group are judged each on its own. -/
namespace NanoClaw.Mounts
open Store Json PosixPath

/-- A root whose directory is there and holds the path. -/
def Holds (fs : Paths) (realPath : RealPath) (root : AllowedRoot) : Prop :=
  ∃ top, resolveRoot fs root = .ok top ∧ fs.isThere top = .ok true ∧ realPath.Below top

/-- A root that can be resolved and looked for. -/
def Answers (fs : Paths) (root : AllowedRoot) : Prop :=
  ∃ top there, resolveRoot fs root = .ok top ∧ fs.isThere top = .ok there

/-- The patterns that an allowlist blocks, configured and default. -/
def Blocked (allowlist : MountAllowlist) (pattern : List Nat) : Prop :=
  pattern ∈ allowlist.blockedPatterns ∨ pattern ∈ defaultBlockedPatterns.map codes

/-- What a validated mount is: where its path leads, where it appears, and when it may be written. -/
structure SoundMount (fs : Paths) (allowlist : MountAllowlist) (isMain : Bool)
    (mount : AdditionalMount) (entry : ValidatedMount) : Prop where
  host : ∃ realPath, resolveMount fs mount = .ok realPath ∧ entry.hostPath = realPath.text ∧
    (∃ root ∈ allowlist.allowedRoots, Holds fs realPath root ∧
      (entry.readonly = false → root.allowReadWrite = true)) ∧
    ∀ pattern, Blocked allowlist pattern → ∀ part ∈ realPath.parts, ¬pattern <:+: part
  container : normComponents containerBase <+: normComponents entry.containerPath
  writable : entry.readonly = false →
    mount.readonly = false ∧ (isMain = true ∨ allowlist.nonMainReadOnly = false)

section Judging
variable {fs : Paths} {allowlist : MountAllowlist} {isMain : Bool} {mount : AdditionalMount}
  {realPath : RealPath} {entry : ValidatedMount}

theorem occursIn_iff {pattern text : List Nat} : occursIn pattern text = true ↔ pattern <:+: text := by
  rw [occursIn, ← not_iff_not, Bool.not_eq_true, Option.isSome_eq_false_iff, Option.isNone_iff_eq_none]
  exact Cut.cut_eq_none_iff

theorem not_infix_of_not_matches {patterns : List (List Nat)}
    (h : (matchesBlockedPattern realPath patterns).isSome = false) {pattern : List Nat}
    (hpattern : pattern ∈ patterns) : ∀ part ∈ realPath.parts, ¬pattern <:+: part := by
  intro part hpart hinfix
  rw [Option.isSome_eq_false_iff, Option.isNone_iff_eq_none, matchesBlockedPattern,
    List.find?_eq_none] at h
  have hclean := h pattern hpattern
  rw [Bool.or_eq_true, not_or, List.any_eq_true, not_exists] at hclean
  exact hclean.1 part ⟨hpart,occursIn_iff.mpr hinfix⟩

theorem findAllowedRoot_holds {root : AllowedRoot} {roots : List AllowedRoot}
    (h : Holds fs realPath root) : findAllowedRoot fs realPath (root :: roots) = .ok (some root) := by
  obtain ⟨top,htop,hthere,hbelow⟩ := h
  rw [findAllowedRoot]
  simp only [htop, hthere]
  exact if_pos hbelow

theorem findAllowedRoot_passes {root : AllowedRoot} {roots : List AllowedRoot}
    (hanswers : Answers fs root) (h : ¬Holds fs realPath root) :
    findAllowedRoot fs realPath (root :: roots) = findAllowedRoot fs realPath roots := by
  obtain ⟨top,there,htop,hthere⟩ := hanswers
  rw [findAllowedRoot]
  simp only [htop, hthere]
  cases there with
  | false => rfl
  | true => exact if_neg (fun hbelow => h ⟨top,htop,hthere,hbelow⟩)

theorem answers_of_findAllowedRoot {root : AllowedRoot} {roots : List AllowedRoot}
    {root? : Option AllowedRoot} (h : findAllowedRoot fs realPath (root :: roots) = .ok root?) :
    Answers fs root := by
  rw [findAllowedRoot] at h
  cases htop : resolveRoot fs root with
  | error e =>
    rw [htop] at h
    cases h
  | ok top =>
    cases hthere : fs.isThere top with
    | error e =>
      simp only [htop, hthere] at h
      cases h
    | ok there => exact ⟨top,there,htop,hthere⟩

/-- The search ends at a root that holds the path. -/
theorem findAllowedRoot_spec {roots : List AllowedRoot} {root : AllowedRoot}
    (h : findAllowedRoot fs realPath roots = .ok (some root)) :
    root ∈ roots ∧ Holds fs realPath root := by
  induction roots with
  | nil => cases h
  | cons r roots ih =>
    by_cases hr : Holds fs realPath r
    · rw [findAllowedRoot_holds hr] at h
      cases h
      exact ⟨List.mem_cons_self,hr⟩
    · rw [findAllowedRoot_passes (answers_of_findAllowedRoot h) hr] at h
      exact (ih h).imp_left (List.mem_cons_of_mem r)

/-- The search answers exactly when every root does that it comes to. -/
theorem findAllowedRoot_ok_iff {roots : List AllowedRoot} :
    (∃ root?, findAllowedRoot fs realPath roots = .ok root?) ↔
      ∀ before root after, roots = before ++ root :: after →
        (∀ r ∈ before, ¬Holds fs realPath r) → Answers fs root := by
  induction roots with
  | nil => simp [findAllowedRoot]
  | cons r roots ih =>
    constructor
    · rintro ⟨root?,h⟩ before root after hroots hbefore
      have hr := answers_of_findAllowedRoot h
      cases before with
      | nil =>
        cases hroots
        exact hr
      | cons b before =>
        cases hroots
        obtain ⟨hb,hbefore⟩ := List.forall_mem_cons.mp hbefore
        rw [findAllowedRoot_passes hr hb] at h
        exact ih.mp ⟨root?,h⟩ before root after rfl hbefore
    · intro h
      have hr : Answers fs r := h [] r roots rfl (by simp)
      by_cases hholds : Holds fs realPath r
      · exact ⟨some r,findAllowedRoot_holds hholds⟩
      · rw [findAllowedRoot_passes hr hholds]
        refine ih.mpr (fun before root after hroots hbefore => ?_)
        refine h (r :: before) root after (congrArg _ hroots) ?_
        exact List.forall_mem_cons.mpr ⟨hholds,hbefore⟩

theorem container_below {s : List Char} (h : isValidContainerPath s = true) :
    normComponents containerBase <+: normComponents (containerBase ++ '/' :: s) := by
  simp only [isValidContainerPath, Bool.and_eq_true, Bool.not_eq_true'] at h
  exact normComponents_below containerBase h.1.2

/-- A mount that is passed on had its path resolved, and was then let through. -/
theorem judge_some (h : judge fs allowlist isMain mount = .ok (some entry)) :
    isValidContainerPath (containerPathOf mount) = true ∧ ∃ realPath,
      resolveMount fs mount = .ok realPath ∧
        judgeResolved fs allowlist isMain mount realPath = .ok (some entry) := by
  rw [judge] at h
  split_ifs at h with hcontainer
  · cases h
  · refine ⟨Bool.not_eq_false _ ▸ hcontainer,?_⟩
    rw [resolveMount]
    cases hexpand : expandUser fs (codes mount.hostPath) with
    | error e =>
      rw [hexpand] at h
      cases h
    | ok hostPath =>
      simp only [hexpand] at h
      change ∃ realPath, fs.resolveStrict hostPath = .ok realPath ∧ _
      cases hreal : fs.resolveStrict hostPath with
      | error e =>
        rw [hreal] at h
        cases e <;> cases h
      | ok realPath =>
        simp only [hreal] at h
        exact ⟨realPath,rfl,h⟩

/-- What is let through is free of blocked patterns and below a root, and is written as the root and
the group allow. -/
theorem judgeResolved_some (h : judgeResolved fs allowlist isMain mount realPath = .ok (some entry)) :
    (matchesBlockedPattern realPath allowlist.blockedPatterns).isSome = false ∧
      ∃ root, findAllowedRoot fs realPath allowlist.allowedRoots = .ok (some root) ∧
        entry.hostPath = realPath.text ∧
        entry.containerPath = containerBase ++ '/' :: containerPathOf mount ∧
        (entry.readonly = false ↔ mount.readonly = false ∧ root.allowReadWrite = true ∧
          (isMain = true ∨ allowlist.nonMainReadOnly = false)) := by
  rw [judgeResolved] at h
  split_ifs at h with hblocked
  · cases h
  · refine ⟨Bool.not_eq_true _ ▸ hblocked,?_⟩
    cases hroot : findAllowedRoot fs realPath allowlist.allowedRoots with
    | error e =>
      rw [hroot] at h
      cases h
    | ok root? =>
      cases root? with
      | none =>
        rw [hroot] at h
        cases h
      | some root =>
        simp only [hroot] at h
        cases h
        refine ⟨root,rfl,rfl,rfl,?_⟩
        rw [decide_eq_false_iff_not, not_not]

/-- A mount that is passed on is sound. -/
theorem judge_sound (h : judge fs allowlist isMain mount = .ok (some entry)) :
    SoundMount fs allowlist isMain mount entry := by
  obtain ⟨hcontainer,realPath,hreal,h⟩ := judge_some h
  obtain ⟨hclean,root,hroot,hhost,hpath,hreadonly⟩ := judgeResolved_some h
  obtain ⟨hmem,hholds⟩ := findAllowedRoot_spec hroot
  refine ⟨⟨realPath,hreal,hhost,⟨root,hmem,hholds,fun hw => (hreadonly.mp hw).2.1⟩,?_⟩,?_,?_⟩
  · rintro pattern (hpattern | hpattern)
    · exact not_infix_of_not_matches hclean hpattern
    · obtain ⟨default,hdefault,rfl⟩ := List.mem_map.mp hpattern
      exact not_infix_of_not_matches hclean (allowlist.blocksDefaults default hdefault)
  · rw [hpath]
    exact container_below hcontainer
  · intro hw
    obtain ⟨hmount,_,hgroup⟩ := hreadonly.mp hw
    exact ⟨hmount,hgroup⟩

/-- Every mount that is validated is sound. -/
theorem validated_sound (fs : Paths) (allowlist : Option MountAllowlist)
    (mounts : List AdditionalMount) (isMain : Bool) (entries : List ValidatedMount)
    (h : validateAdditionalMounts fs allowlist mounts isMain = .ok entries) :
    ∀ entry ∈ entries, ∃ allow, allowlist = some allow ∧
      ∃ mount ∈ mounts, SoundMount fs allow isMain mount entry := by
  intro entry hentry
  cases allowlist with
  | none =>
    cases h
    cases hentry
  | some allow =>
    obtain ⟨mount,hmount,hjudge⟩ := Each.mem_collect h hentry
    exact ⟨allow,rfl,mount,hmount,judge_sound hjudge⟩

/-- A host with the user `u` and, at its top, the directory `data` with the file `x`. -/
def smallHost : Paths where
  home := .ok (codes "/u")
  expanduser := .ok
  resolveStrict path :=
    if path = codes "/data" then .ok ⟨[codes "data"],by decide⟩
    else if path = codes "/data/x/y" then .error .notADirectoryError
    else .error .fileNotFoundError
  resolve path :=
    if path = codes "/data" then .ok ⟨[codes "data"],by decide⟩ else .ok ⟨[codes "u"],by decide⟩
  isThere _ := .ok true

def dataAllowed : MountAllowlist where
  allowedRoots := [⟨codes "/data",true⟩]
  blockedPatterns := defaultBlockedPatterns.map codes
  nonMainReadOnly := true
  blocksDefaults _ h := List.mem_map_of_mem h

def dataMount : AdditionalMount := ⟨"/data",none,false⟩

theorem validated_sound_data :
    validateAdditionalMounts smallHost (some dataAllowed) [dataMount] true =
        .ok [⟨codes "/data","/workspace/extra/data".toList,false⟩] ∧
      ∀ entry ∈ [ValidatedMount.mk (codes "/data") "/workspace/extra/data".toList false],
        ∃ allow, some dataAllowed = some allow ∧
          ∃ mount ∈ [dataMount], SoundMount smallHost allow true mount entry :=
  ⟨by decide,validated_sound smallHost (some dataAllowed) [dataMount] true _ (by decide)⟩

/-- A mount that is judged whatever comes before it: its container path is refused, or its path is
expanded, and then is missing, is blocked, or has every root answer that the search comes to. The
loop handles no error of the resolution but that of a missing file. -/
def Judgeable (fs : Paths) (allowlist : MountAllowlist) (mount : AdditionalMount) : Prop :=
  isValidContainerPath (containerPathOf mount) = false ∨
    ∃ hostPath, expandUser fs (codes mount.hostPath) = .ok hostPath ∧
      (fs.resolveStrict hostPath = .error .fileNotFoundError ∨
        ∃ realPath, fs.resolveStrict hostPath = .ok realPath ∧
          ((matchesBlockedPattern realPath allowlist.blockedPatterns).isSome = true ∨
            ∀ before root after, allowlist.allowedRoots = before ++ root :: after →
              (∀ r ∈ before, ¬Holds fs realPath r) → Answers fs root))

theorem judgeResolved_ok_iff : (∃ out, judgeResolved fs allowlist isMain mount realPath = .ok out) ↔
    (matchesBlockedPattern realPath allowlist.blockedPatterns).isSome = true ∨
      ∀ before root after, allowlist.allowedRoots = before ++ root :: after →
        (∀ r ∈ before, ¬Holds fs realPath r) → Answers fs root := by
  rw [← findAllowedRoot_ok_iff, judgeResolved]
  split_ifs with hblocked
  · exact iff_of_true ⟨none,rfl⟩ (Or.inl hblocked)
  · rw [or_iff_right hblocked]
    cases findAllowedRoot fs realPath allowlist.allowedRoots with
    | error e =>
      refine iff_of_false ?_ ?_
      · rintro ⟨out,h⟩
        cases h
      · rintro ⟨root?,h⟩
        cases h
    | ok root? =>
      refine iff_of_true ?_ ⟨root?,rfl⟩
      cases root? with
      | none => exact ⟨none,rfl⟩
      | some root => exact ⟨_,rfl⟩

theorem judge_ok_iff :
    (∃ out, judge fs allowlist isMain mount = .ok out) ↔ Judgeable fs allowlist mount := by
  rw [judge, Judgeable]
  split_ifs with hcontainer
  · exact iff_of_true ⟨none,rfl⟩ (Or.inl hcontainer)
  · rw [or_iff_right hcontainer]
    cases expandUser fs (codes mount.hostPath) with
    | error e =>
      refine iff_of_false ?_ ?_
      · rintro ⟨out,h⟩
        cases h
      · rintro ⟨hostPath,h,_⟩
        cases h
    | ok hostPath =>
      simp only [Except.ok.injEq, exists_eq_left']
      cases fs.resolveStrict hostPath with
      | error e =>
        cases e with
        | fileNotFoundError => exact iff_of_true ⟨none,rfl⟩ (Or.inl rfl)
        | _ => simp
      | ok realPath =>
        simp only [reduceCtorEq, false_or, Except.ok.injEq, exists_eq_left']
        exact judgeResolved_ok_iff

/-- The mounts of a list are judged each on its own exactly when every one can be judged. -/
theorem judged_separately_iff (fs : Paths) (allowlist : Option MountAllowlist)
    (mounts : List AdditionalMount) (isMain : Bool) :
    (∃ results,
        mounts.mapM (fun mount => validateAdditionalMounts fs allowlist [mount] isMain) = .ok results ∧
          validateAdditionalMounts fs allowlist mounts isMain = .ok results.flatten) ↔
      ∀ allow, allowlist = some allow → ∀ mount ∈ mounts, Judgeable fs allow mount := by
  cases allowlist with
  | none =>
    refine iff_of_true ?_ (by simp)
    have hnone : ∀ mounts : List AdditionalMount, Each.collect
        (fun _ => (.ok none : Except PathError (Option ValidatedMount))) mounts = .ok [] := by
      intro mounts
      rw [Each.collect_eq_filterMap (g := fun _ => none) (fun _ _ => rfl)]
      simp
    have h := (Each.collect_separate_iff
      (f := fun _ => (.ok none : Except PathError (Option ValidatedMount))) (l := mounts)).mpr
      (fun _ _ => ⟨none,rfl⟩)
    simp only [hnone] at h
    exact h
  | some allow =>
    refine Each.collect_separate_iff.trans ?_
    simp only [judge_ok_iff, Option.some.injEq, forall_eq']

/-- A path that leads through a file ends the check, though the other mount alone is passed on. -/
theorem path_through_file_raises :
    validateAdditionalMounts smallHost (some dataAllowed)
        [⟨"/data/x/y",none,true⟩,dataMount] true = .error .notADirectoryError ∧
      validateAdditionalMounts smallHost (some dataAllowed) [dataMount] true =
        .ok [⟨codes "/data","/workspace/extra/data".toList,false⟩] ∧
      ¬∃ results,
        [⟨"/data/x/y",none,true⟩,dataMount].mapM
            (fun mount => validateAdditionalMounts smallHost (some dataAllowed) [mount] true) =
          .ok results ∧
        validateAdditionalMounts smallHost (some dataAllowed)
            [⟨"/data/x/y",none,true⟩,dataMount] true = .ok results.flatten := by
  have hraises : validateAdditionalMounts smallHost (some dataAllowed)
      [⟨"/data/x/y",none,true⟩,dataMount] true = .error .notADirectoryError := by decide
  refine ⟨hraises,by decide,?_⟩
  rintro ⟨results,_,h⟩
  rw [hraises] at h
  cases h

end Judging

end NanoClaw.Mounts
