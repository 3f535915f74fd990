import Icode.CommandForms
import Icode.JoinedText

/-!
# Commands that the guard allows

A command that is allowed has passed every check (`passed_of_allow`), and each check finds one kind
of spelling: an argument that begins with `-c`, the letters behind `git clean`, every action of
`find` and every spelling of `rm -rf` (`Passed.code`, `Passed.clean`, `Passed.find`, `Passed.rm`),
and what the patterns have as one text (`Passed.not_found`).

`allowed_harmless_iff` : a command that is allowed is harmless exactly when what is dangerous in it
is spelled plainly.
-/

namespace Icode

open Py Regex

namespace GuardCommand

/-! ## What the guard allows -/

section Allowed

variable {u : UnicodeTables} {f : Flavour} {allowlist : List PyStr} {program : PyStr}
  {arguments parts : List PyStr}

theorem argumentVerdict_ne_allow {head : PyStr} {verdict : Verdict}
    (h : argumentVerdict u head parts = some verdict) : verdict.decision ≠ .allow := by
  unfold argumentVerdict at h
  dsimp only at h
  split_ifs at h
  · obtain rfl := Option.some.inj h
    decide
  · split at h
    · split_ifs at h
      obtain rfl := Option.some.inj h
      decide
    · cases h
  · obtain rfl := Option.some.inj h
    decide
  · obtain rfl := Option.some.inj h
    decide

theorem contains_singleton {s : PyStr} {c : CodePoint} (h : c ∈ s) : contains s [c] = true := by
  obtain ⟨pre, post, rfl⟩ := List.append_of_mem h
  rw [contains, List.any_eq_true]
  exact ⟨c :: post, (List.mem_tails _ _).mpr (List.suffix_append _ _), by simp⟩

/-- A command that is allowed has passed every check. -/
structure Passed (u : UnicodeTables) (f : Flavour) (program : PyStr) (arguments : List PyStr) :
    Prop where
  named : strip program ≠ []
  oneLine : ∀ piece ∈ program :: arguments, CodePoint.scalar '\n' ∉ piece
  searched : ∀ entry ∈ dangerousPatterns,
    entry.1.search u.wordOther (strip (joinWith ' ' (program :: arguments))) = false
  judged : argumentVerdict u (programName u f program) (program :: arguments) = none

theorem passed_of_allow
    (h : (checkCommand u f allowlist (.parts (program :: arguments))).decision = .allow) :
    Passed u f program arguments := by
  unfold checkCommand at h
  dsimp only at h
  split at h
  · cases h
  split at h
  · cases h
  rename_i hprogram
  split at h
  · cases h
  split at h
  · cases h
  split at h
  · cases h
  rename_i hshape
  split at h
  · cases h
  rename_i hsearch
  split at h
  · rename_i verdict hverdict
    exact absurd h (argumentVerdict_ne_allow hverdict)
  · rename_i hverdict
    refine ⟨by simpa using hprogram, fun piece hpiece hline => ?_, fun entry hentry => ?_, hverdict⟩
    · have hmeta := List.find?_eq_none.mp hshape piece hpiece
      refine hmeta (List.any_eq_true.mpr ⟨lit "\n", by decide, contains_singleton hline⟩)
    · rw [← Bool.not_eq_true]
      exact List.find?_eq_none.mp hsearch entry hentry

theorem startsWith_iff {s : PyStr} {start : String} :
    startsWith s start = true ↔ ∃ rest, s = lit start ++ rest := by
  rw [startsWith, List.isPrefixOf_iff_prefix]
  exact exists_congr fun rest => eq_comm

/-- The code of an interpreter is behind another letter. -/
theorem Passed.code (h : Passed u f program arguments) {token : PyStr}
    (hcode : inlineCode (programName u f program) arguments = some token) :
    startsWith token "-c" = false := by
  obtain ⟨hhead, hmem⟩ := inlineCode_eq_some hcode
  have hfind : programName u f program ≠ lit "find" := by
    intro heq
    rw [heq] at hhead
    revert hhead
    decide
  have hgit : programName u f program ≠ lit "git" := by
    intro heq
    rw [heq] at hhead
    revert hhead
    decide
  have hjudged := h.judged
  simp only [argumentVerdict, if_neg hfind, if_neg hgit, hhead, if_true, List.map_cons,
    List.drop_one, List.tail_cons, ite_eq_right_iff, reduceCtorEq, imp_false, List.any_eq_true,
    not_exists, not_and] at hjudged
  rw [← Bool.not_eq_true, startsWith_iff]
  rintro ⟨rest, rfl⟩
  refine hjudged (lower u (lit "-c" ++ rest)) (List.mem_map_of_mem hmem) ?_
  have hlower : lower u (lit "-c" ++ rest) = lit "-c" ++ lowerFrom u (lit "-c") rest :=
    lowerFrom_append (by decide)
  have hdouble : startsWith (lit "-c" ++ lowerFrom u (lit "-c") rest) "--" = false := rfl
  have hleading : startsWith (lit "-c" ++ lowerFrom u (lit "-c") rest) "-c" = true :=
    startsWith_iff.mpr ⟨_, rfl⟩
  rw [hlower, hdouble, hleading, Bool.not_false, Bool.and_self, Bool.or_true]

/-- The arguments of `find` are all looked at. -/
theorem Passed.find (h : Passed u f program arguments)
    (hhead : programName u f program = lit "find") :
    arguments.any destructiveFindArguments.contains = false := by
  have hjudged := h.judged
  simp only [argumentVerdict, if_pos hhead, List.map_cons, List.drop_one, List.tail_cons,
    ite_eq_right_iff, reduceCtorEq, imp_false, List.any_eq_true, not_exists, not_and] at hjudged
  rw [List.any_eq_false]
  intro token hmem hdestructive
  have hlower : lower u token = token := by
    have hascii : ∀ token ∈ destructiveFindArguments,
        (∀ c ∈ token, c.ord < 128) ∧ token.map lowerAscii = token := by decide
    obtain ⟨hlt, hmap⟩ := hascii token (List.contains_iff_mem.mp hdestructive)
    rw [lower_of_ascii hlt, hmap]
  refine hjudged _ (List.mem_map_of_mem hmem) ?_
  rwa [hlower]

theorem head_of_readCluster {o : ShortOptions} {c : CodePoint} {cs : PyStr}
    (h : readCluster o (c :: cs) ≠ .unknown) : c ∈ o.valued ++ o.flags := by
  rw [readCluster] at h
  split_ifs at h with hvalued hflag
  · exact List.mem_append_left _ (List.contains_iff_mem.mp hvalued)
  · exact List.mem_append_right _ (List.contains_iff_mem.mp hflag)
  · exact absurd rfl h

/-- Directly behind `git` the subcommand is looked at. -/
theorem Passed.clean (h : Passed u f program arguments)
    (hhead : programName u f program = lit "git") {rest : List PyStr}
    (harguments : arguments = lit "clean" :: rest) : cleans rest = false := by
  have hjudged := h.judged
  have hfind : ¬programName u f program = lit "find" := by rw [hhead]; decide
  have hclean : lower u (lit "clean") = lit "clean" := lower_of_ascii (by decide)
  simp only [argumentVerdict, if_neg hfind, if_pos hhead, harguments, List.map_cons, hclean,
    true_and, ite_eq_right_iff, reduceCtorEq, imp_false, cleanForced, List.any_eq_true,
    not_exists, not_and] at hjudged
  rw [← Bool.not_eq_true]
  intro hcleans
  obtain ⟨token, hmem, hgives⟩ := exists_of_hasOption hcleans
  have hlowered : lower u token ∈ rest.map (lower u) := List.mem_map_of_mem hmem
  rcases hgives with rfl | ⟨cluster, rfl, hdash, hf, hread⟩
  · have hforce : lower u (lit "--force") = lit "--force" := lower_of_ascii (by decide)
    rw [hforce] at hlowered
    exact hjudged _ (List.mem_filter.mpr ⟨hlowered, by decide⟩) (by decide)
  · obtain ⟨x, hx, hxf⟩ := exists_mem_of_clusterHas hf
    obtain rfl := eq_of_beq hxf
    have hdrop : lower u (.scalar '-' :: cluster) =
        .scalar '-' :: lowerFrom u [.scalar '-'] cluster := rfl
    have hmemf : CodePoint.scalar 'f' ∈ lowerFrom u [.scalar '-'] cluster :=
      mem_lowerFrom hx (by decide)
    have hdouble : startsWith (lower u (.scalar '-' :: cluster)) "--" = false := by
      cases cluster with
      | nil => rfl
      | cons c cs =>
        have hknown : ∀ c ∈ cleanOptions.valued ++ cleanOptions.flags,
            c.ord < 128 ∧ lowerAscii c ≠ .scalar '-' := by decide
        obtain ⟨hascii, hne⟩ := hknown c (head_of_readCluster hread)
        rw [hdrop, lowerFrom, if_pos hascii, ← Bool.not_eq_true, startsWith_iff]
        rintro ⟨rest, heq⟩
        exact hne (List.cons.inj (List.cons.inj heq).2).1
    refine hjudged _ (List.mem_filter.mpr ⟨hlowered, rfl⟩) ?_
    rw [hdouble, hdrop, List.drop_one, List.tail_cons, List.contains_iff_mem.mpr hmemf]
    simp only [Bool.not_false, Bool.and_self, Bool.or_true]

theorem forall_of_readCluster {o : ShortOptions} {cluster : PyStr} (hvalued : o.valued = [])
    (h : readCluster o cluster ≠ .unknown) : ∀ c ∈ cluster, c ∈ o.flags := by
  induction cluster with
  | nil => simp
  | cons c cs ih =>
    rw [readCluster, hvalued, List.contains_nil, if_neg Bool.false_ne_true] at h
    split_ifs at h with hflag
    · exact List.forall_mem_cons.mpr ⟨List.contains_iff_mem.mp hflag, ih h⟩
    · exact absurd rfl h

/-- A cluster of `rm` with a letter is one in which the letter is found. -/
theorem shortFlag_of_mem {letter : String} {c : CodePoint} {cluster : PyStr}
    (hletter : lit letter = [c]) (hknown : ∀ c ∈ cluster, c ∈ rmOptions.flags)
    (hmem : c ∈ cluster.map lowerAscii) :
    shortFlag u letter (lit "-" ++ cluster.map lowerAscii) = true := by
  have hlower : ∀ c ∈ cluster.map lowerAscii, isLower c = true := by
    have hflags : ∀ c ∈ rmOptions.flags, isLower (lowerAscii c) = true := by decide
    intro c hc
    obtain ⟨d, hd, rfl⟩ := List.mem_map.mp hc
    exact hflags d (hknown d hd)
  obtain ⟨pre, post, hsplit⟩ := List.append_of_mem hmem
  rw [hsplit] at hlower ⊢
  rw [List.forall_mem_append, List.forall_mem_cons] at hlower
  have hway : placeAt ([] ++ lit "-" ++ pre ++ lit letter ++ post) [] ∈
      (seqs [word "-", many isLower, word letter, many isLower]).ends u.wordOther
        (placeAt [] (lit "-" ++ (pre ++ (lit letter ++ (post ++ []))))) :=
    mem_seqs (mem_word "-") (mem_seqs (mem_many hlower.1) (mem_seqs (mem_word letter)
      (mem_seqs (mem_many hlower.2.2) mem_seqs_nil)))
  rw [hletter, List.append_nil, List.singleton_append] at hway
  exact fullmatch_at hway rfl

/-- An option of `rm` that is read is found by the guard. -/
theorem found_of_hasOption (letter : String) {c : CodePoint} {isLetter : CodePoint → Bool}
    {long : PyStr} (hletter : lit letter = [c])
    (hlower : ∀ x ∈ rmOptions.flags, isLetter x = true → lowerAscii x = c)
    (hlong : lower u long = long)
    (h : hasOption rmOptions isLetter long false arguments = true) :
    long ∈ arguments.map (lower u) ∨ ∃ token, (token ∈ arguments.map (lower u) ∧
      startsWith token "-" = true ∧ startsWith token "--" = false) ∧
        shortFlag u letter token = true := by
  obtain ⟨token, hmem, hgives⟩ := exists_of_hasOption h
  have hlowered : lower u token ∈ arguments.map (lower u) := List.mem_map_of_mem hmem
  rcases hgives with rfl | ⟨cluster, rfl, hdash, hhas, hread⟩
  · rw [hlong] at hlowered
    exact .inl hlowered
  · have hknown := forall_of_readCluster rfl hread
    obtain ⟨x, hx, hisLetter⟩ := exists_mem_of_clusterHas hhas
    have hflags : ∀ x ∈ rmOptions.flags, x.ord < 128 ∧ lowerAscii x ≠ .scalar '-' := by decide
    have hsplit : lower u (.scalar '-' :: cluster) = lit "-" ++ cluster.map lowerAscii := by
      refine lower_of_ascii ?_
      exact List.forall_mem_cons.mpr ⟨by decide, fun x hx => (hflags x (hknown x hx)).1⟩
    rw [hsplit] at hlowered
    refine .inr ⟨_, ⟨hlowered, rfl, ?_⟩, shortFlag_of_mem hletter hknown ?_⟩
    · rw [← Bool.not_eq_true, startsWith_iff]
      rintro ⟨rest, heq⟩
      cases cluster with
      | nil => cases hx
      | cons y cluster =>
        exact (hflags y (hknown y List.mem_cons_self)).2 (List.cons.inj (List.cons.inj heq).2).1
    · rw [← hlower x (hknown x hx) hisLetter]
      exact List.mem_map_of_mem hx

/-- `rm` is denied with both options, however they are written. -/
theorem Passed.rm (h : Passed u f program arguments)
    (hhead : programName u f program = lit "rm") : removes arguments = false := by
  have hjudged := h.judged
  rw [hhead] at hjudged
  rw [← Bool.not_eq_true, removes, Bool.and_eq_true]
  rintro ⟨hrecursive, hforce⟩
  have hr := found_of_hasOption (u := u) "r" rfl (by decide) (lower_of_ascii (by decide)) hrecursive
  have hf := found_of_hasOption (u := u) "f" rfl (by decide) (lower_of_ascii (by decide)) hforce
  have hfind : ¬lit "rm" = lit "find" := by decide
  have hgit : ¬lit "rm" = lit "git" := by decide
  have hinterpreter : interpreters.contains (lit "rm") = false := by decide
  simp only [argumentVerdict, if_neg hfind, if_neg hgit, hinterpreter, if_true, List.map_cons,
    List.drop_one, List.tail_cons, ite_eq_right_iff, reduceCtorEq, imp_false, Bool.false_eq_true,
    if_false, Bool.and_eq_true, Bool.or_eq_true, List.contains_iff_mem, List.any_eq_true,
    List.mem_filter, Bool.not_eq_true'] at hjudged
  exact hjudged ⟨hr, hf⟩

end Allowed

/-! ## What the patterns find -/

section Search

variable {u : UnicodeTables} {f : Flavour} {program : PyStr} {arguments : List PyStr}

theorem notWord_of_closed {b : PyStr} (h : Closed b) :
    b.head?.any (isWordCharacter u.wordOther) = false := by
  rcases h with rfl | ⟨t, rfl⟩ <;> rfl

/-- No pattern is found from the word of the program on. -/
theorem Passed.not_found (h : Passed u f program arguments) {r : Regex} {label : String}
    (hentry : (r, label) ∈ dangerousPatterns) {w : String} {x b : PyStr} {y : CodePoint}
    (hword : EndsInWord u w program) (hw : lit w ≠ []) (hjoin : joinWith ' ' arguments = x ++ b)
    (hne : arguments ≠ []) (hlast : x.getLast? = some y) (hy : isSpace y = false) :
    ¬∀ pre gap post, pre.getLast?.any (isWordCharacter u.wordOther) = false → gap ≠ [] →
      (∀ c ∈ gap, isSpace c = true ∧ isAny c = true) → post <+: b →
      ∃ place, place ∈ r.ends u.wordOther (placeAt pre (lit w ++ (gap ++ (x ++ post)))) := by
  intro hway
  obtain ⟨before, hbefore, hnotWord⟩ := hword
  obtain ⟨l, gap, hprogram, hl, hgap, hhead⟩ := exists_strip program
  have hany : ∀ c ∈ program, isAny c = true := by
    intro c hc
    rw [isAny, bne_iff_ne]
    rintro rfl
    exact h.oneLine program List.mem_cons_self hc
  have hgapAny : ∀ c ∈ gap ++ [CodePoint.scalar ' '], isSpace c = true ∧ isAny c = true := by
    rw [List.forall_mem_append, List.forall_mem_singleton]
    refine ⟨fun c hc => ⟨hgap c hc, hany c ?_⟩, by decide⟩
    rw [hprogram]
    exact List.mem_append_right _ (List.mem_append_right _ hc)
  have htext : joinWith ' ' (program :: arguments) =
      l ++ ((before ++ lit w ++ (gap ++ [CodePoint.scalar ' '] ++ x)) ++ b) := by
    rw [joinWith_cons hne, hjoin]
    conv_lhs => rw [hprogram, hbefore]
    simp only [List.append_assoc, List.cons_append, List.nil_append]
  have hfirst : ((before ++ lit w ++ (gap ++ [CodePoint.scalar ' '] ++ x)) ++ b).head?.any
      isSpace = false := by
    obtain ⟨c, rest, hcons⟩ :=
      List.exists_cons_of_ne_nil (List.append_ne_nil_of_right_ne_nil before hw)
    rw [hbefore, hcons] at hhead
    rw [hcons]
    exact hhead
  have hend : (before ++ lit w ++ (gap ++ [CodePoint.scalar ' '] ++ x)).getLast? = some y := by
    simp only [List.getLast?_append, hlast, Option.some_or]
  obtain ⟨b', hstrip, hb'⟩ := strip_between hl hfirst hend hy
  have hsearched := h.searched _ hentry
  obtain ⟨place, hplace⟩ := hway before (gap ++ [CodePoint.scalar ' ']) b' hnotWord
    (by simp) hgapAny hb'
  rw [htext, hstrip] at hsearched
  simp only [List.append_assoc] at hsearched hplace
  rw [search_at hplace] at hsearched
  cases hsearched

/-- `git reset --hard` is denied. -/
theorem Passed.reset (h : Passed u f program arguments) (hword : EndsInWord u "git" program)
    {rest : List PyStr} : arguments ≠ lit "reset" :: lit "--hard" :: rest := by
  rintro rfl
  obtain ⟨b, hjoin, hb⟩ := joinWith_head (lit "--hard") rest
  have hentry : (resetPattern, "丢弃本地改动") ∈ dangerousPatterns :=
    List.mem_of_getElem? (show dangerousPatterns[7]? = _ from rfl)
  have hargs : joinWith ' ' (lit "reset" :: lit "--hard" :: rest) =
      (lit "reset" ++ (lit " " ++ lit "--hard")) ++ b := by
    rw [joinWith_cons (List.cons_ne_nil _ _), hjoin]
    simp only [List.append_assoc]
    rfl
  refine h.not_found hentry hword (by decide) hargs (List.cons_ne_nil _ _) rfl rfl ?_
  intro pre gap post hpre hgap hspaces hpost
  have hafter := notWord_of_closed (u := u) (hb.of_prefix hpost)
  simp only [List.append_assoc]
  exact ⟨_, mem_seqs (mem_boundary_before rfl rfl hpre) (mem_seqs (mem_word "git")
    (mem_seqs (mem_several hgap fun c hc => (hspaces c hc).1) (mem_seqs (mem_word "reset")
      (mem_seqs (mem_several (by decide) (by decide)) (mem_seqs (mem_word "--hard")
        (mem_seqs (mem_boundary_after rfl rfl hafter) mem_seqs_nil))))))⟩

/-- `chmod -R 777` is denied. -/
theorem Passed.chmod (h : Passed u f program arguments) (hword : EndsInWord u "chmod" program) :
    opensAll arguments = false := by
  rw [← Bool.not_eq_true, opensAll, beq_iff_eq]
  intro htake
  obtain ⟨rest, rfl⟩ : ∃ rest, arguments = lit "-R" :: lit "777" :: rest :=
    ⟨arguments.drop 2, by rw [← List.take_append_drop 2 arguments, htake]; rfl⟩
  obtain ⟨b, hjoin, hb⟩ := joinWith_head (lit "777") rest
  have hentry : (chmodPattern, "危险权限变更") ∈ dangerousPatterns :=
    List.mem_of_getElem? (show dangerousPatterns[8]? = _ from rfl)
  have hargs : joinWith ' ' (lit "-R" :: lit "777" :: rest) =
      (lit "-R" ++ (lit " " ++ lit "777")) ++ b := by
    rw [joinWith_cons (List.cons_ne_nil _ _), hjoin]
    simp only [List.append_assoc]
    rfl
  refine h.not_found hentry hword (by decide) hargs (List.cons_ne_nil _ _) rfl rfl ?_
  intro pre gap post hpre hgap hspaces hpost
  have hafter := notWord_of_closed (u := u) (hb.of_prefix hpost)
  simp only [List.append_assoc]
  exact ⟨_, mem_seqs (mem_boundary_before rfl rfl hpre) (mem_seqs (mem_word "chmod")
    (mem_seqs (mem_several hgap fun c hc => (hspaces c hc).1) (mem_seqs (mem_word "-R")
      (mem_seqs (mem_several (by decide) (by decide)) (mem_seqs (mem_word "777")
        (mem_seqs (mem_boundary_after rfl rfl hafter) mem_seqs_nil))))))⟩

/-- `del /s` and `del /q` are denied. -/
theorem Passed.del (h : Passed u f program arguments) (hword : EndsInWord u "del" program) :
    deletesAll arguments = false := by
  have hentry : (delPattern, "递归删除") ∈ dangerousPatterns :=
    List.mem_of_getElem? (show dangerousPatterns[12]? = _ from rfl)
  cases arguments with
  | nil => rfl
  | cons first rest =>
    obtain ⟨b, hjoin, hb⟩ := joinWith_head first rest
    rw [← Bool.not_eq_true, deletesAll, List.head?_cons, Bool.or_eq_true, beq_iff_eq, beq_iff_eq,
      Option.some.injEq, Option.some.injEq]
    rintro (rfl | rfl)
    · refine h.not_found hentry hword (by decide) hjoin (List.cons_ne_nil _ _) rfl rfl ?_
      intro pre gap post hpre hgap hspaces hpost
      have hafter := notWord_of_closed (u := u) (hb.of_prefix hpost)
      exact ⟨_, mem_seqs (mem_boundary_before rfl rfl hpre) (mem_seqs (mem_word "del")
        (mem_seqs (mem_several hgap fun c hc => (hspaces c hc).1) (mem_seqs (mem_word "/")
          (mem_seqs (mem_alt_left (mem_word "s"))
            (mem_seqs (mem_boundary_after rfl rfl hafter) mem_seqs_nil)))))⟩
    · refine h.not_found hentry hword (by decide) hjoin (List.cons_ne_nil _ _) rfl rfl ?_
      intro pre gap post hpre hgap hspaces hpost
      have hafter := notWord_of_closed (u := u) (hb.of_prefix hpost)
      exact ⟨_, mem_seqs (mem_boundary_before rfl rfl hpre) (mem_seqs (mem_word "del")
        (mem_seqs (mem_several hgap fun c hc => (hspaces c hc).1) (mem_seqs (mem_word "/")
          (mem_seqs (mem_alt_right (mem_word "q"))
            (mem_seqs (mem_boundary_after rfl rfl hafter) mem_seqs_nil)))))⟩

/-- What stands before an argument in the joined text is one line. -/
theorem Passed.isAny_of_join (h : Passed u f program arguments) {l : List PyStr} {a b : PyStr}
    (hl : ∀ piece ∈ l, piece ∈ arguments) (hjoin : joinWith (.scalar ' ') l = a ++ b) :
    ∀ c ∈ a, isAny c = true := by
  have hall : ∀ c ∈ joinWith (.scalar ' ') l, isAny c = true := by
    refine forall_joinWith rfl fun piece hpiece c hc => ?_
    rw [isAny, bne_iff_ne]
    rintro rfl
    exact h.oneLine piece (List.mem_cons_of_mem _ (hl piece hpiece)) hc
  rw [hjoin, List.forall_mem_append] at hall
  exact hall.1

/-- `git push` with an argument that is `-f` or begins with `--force` is denied. -/
theorem Passed.push (h : Passed u f program arguments) (hword : EndsInWord u "git" program)
    {rest : List PyStr} (harguments : arguments = lit "push" :: rest) {token : PyStr}
    (hmem : token ∈ rest) : ¬(startsWith token "--force" = true ∨ token = lit "-f") := by
  have hentry : (pushPattern, "强制推送") ∈ dangerousPatterns :=
    List.mem_of_getElem? (show dangerousPatterns[6]? = _ from rfl)
  obtain ⟨a, b, hjoin, hb⟩ := joinWith_of_mem hmem
  have hne : arguments ≠ [] := by rw [harguments]; exact List.cons_ne_nil _ _
  have hany : ∀ c ∈ CodePoint.scalar ' ' :: a, isAny c = true := by
    refine List.forall_mem_cons.mpr ⟨rfl, h.isAny_of_join (fun piece hpiece => ?_) hjoin⟩
    rw [harguments]
    exact List.mem_cons_of_mem _ hpiece
  have hargs : joinWith ' ' arguments =
      lit "push" ++ ((CodePoint.scalar ' ' :: a) ++ (token ++ b)) := by
    rw [harguments, joinWith_cons (List.ne_nil_of_mem hmem), hjoin, List.cons_append]
  rintro (hforce | rfl)
  · obtain ⟨t, rfl⟩ := startsWith_iff.mp hforce
    have hsplit : joinWith ' ' arguments =
        (lit "push" ++ ((CodePoint.scalar ' ' :: a) ++ lit "--force")) ++ (t ++ b) := by
      rw [hargs]
      simp only [List.append_assoc]
    refine h.not_found hentry hword (by decide) hsplit hne (y := 'e') ?_ rfl ?_
    · simp only [List.getLast?_append, Option.or_eq_some_iff]
      exact .inl (.inl rfl)
    intro pre gap post hpre hgap hspaces hpost
    simp only [List.append_assoc]
    exact ⟨_, mem_alt_left (mem_seqs (mem_boundary_before rfl rfl hpre) (mem_seqs (mem_word "git")
      (mem_seqs (mem_several hgap fun c hc => (hspaces c hc).1) (mem_seqs (mem_word "push")
        (mem_seqs (mem_boundary_after rfl rfl rfl) (mem_seqs (mem_many hany)
          (mem_seqs (mem_word "--force") mem_seqs_nil)))))))⟩
  · have hsplit : joinWith ' ' arguments =
        (lit "push" ++ ((CodePoint.scalar ' ' :: a) ++ lit "-f")) ++ b := by
      rw [hargs]
      simp only [List.append_assoc]
    refine h.not_found hentry hword (by decide) hsplit hne (y := 'f') ?_ rfl ?_
    · simp only [List.getLast?_append, Option.or_eq_some_iff]
      exact .inl (.inl rfl)
    intro pre gap post hpre hgap hspaces hpost
    have hafter := notWord_of_closed (u := u) (hb.of_prefix hpost)
    simp only [List.append_assoc]
    exact ⟨_, mem_alt_right (mem_seqs (mem_boundary_before rfl rfl hpre) (mem_seqs (mem_word "git")
      (mem_seqs (mem_several hgap fun c hc => (hspaces c hc).1) (mem_seqs (mem_word "push")
        (mem_seqs (mem_boundary_after rfl rfl rfl) (mem_seqs (mem_many hany)
          (mem_seqs (mem_word "-f") (mem_seqs
            (mem_boundary_after rfl rfl hafter) mem_seqs_nil))))))))⟩

/-- `Remove-Item` with `-Recurse` is denied. -/
theorem Passed.removeItem (h : Passed u f program arguments)
    (hword : EndsInWord u "Remove-Item" program) : removesItems arguments = false := by
  have hentry : (removeItemPattern, "递归删除") ∈ dangerousPatterns :=
    List.mem_of_getElem? (show dangerousPatterns[11]? = _ from rfl)
  rw [← Bool.not_eq_true, removesItems, List.contains_iff_mem]
  intro hmem
  obtain ⟨a, b, hjoin, hb⟩ := joinWith_of_mem hmem
  have hsplit : joinWith ' ' arguments = (a ++ lit "-Recurse") ++ b := by
    rw [List.append_assoc]
    exact hjoin
  have hany := h.isAny_of_join (fun piece hpiece => hpiece) hjoin
  refine h.not_found hentry hword (by decide) hsplit (List.ne_nil_of_mem hmem) (y := 'e') ?_ rfl ?_
  · rw [List.getLast?_append]
    rfl
  intro pre gap post hpre hgap hspaces hpost
  have hgroup : gap ++ ((a ++ lit "-Recurse") ++ post) =
      (gap ++ a) ++ (lit "-Recurse" ++ post) := by
    simp only [List.append_assoc]
  have hclosed : ((gap ++ a) ++ (lit "-Recurse" ++ post)).head?.any
      (isWordCharacter u.wordOther) = false := by
    cases gap with
    | nil => exact absurd rfl hgap
    | cons c gap => exact isWordCharacter_of_isSpace (hspaces c List.mem_cons_self).1
  have hgapAny : ∀ c ∈ gap ++ a, isAny c = true := by
    rw [List.forall_mem_append]
    exact ⟨fun c hc => (hspaces c hc).2, hany⟩
  rw [hgroup]
  exact ⟨_, mem_seqs (mem_boundary_before rfl rfl hpre) (mem_seqs (mem_word "Remove-Item")
    (mem_seqs (mem_boundary_after rfl rfl hclosed) (mem_seqs (mem_many hgapAny)
      (mem_seqs (mem_word "-Recurse") mem_seqs_nil))))⟩

end Search

/-! ## Commands that are allowed -/

/-- A command that is allowed is harmless exactly when what is dangerous in it is spelled
plainly. -/
theorem allowed_harmless_iff (u : UnicodeTables) (f : Flavour) (allowlist : List PyStr)
    (program : PyStr) (arguments : List PyStr)
    (h : (checkCommand u f allowlist (.parts (program :: arguments))).decision = .allow) :
    Harmless u f program arguments ↔ SpelledPlainly u f program arguments := by
  have hpassed := passed_of_allow h
  constructor
  · intro hharmless
    refine ⟨fun token htoken => ?_, fun hhead rest hrest hclean => ?_,
      fun hhead rest hrest hpush => ?_, fun hhead rest hrest hreset => ?_,
      fun hhead hchmod => ?_, fun hhead hdel => ?_, fun hhead hremove => ?_⟩
    · rw [hharmless.code] at htoken
      cases htoken
    · rw [hharmless.clean hhead rest hrest] at hclean
      cases hclean
    · rw [hharmless.push hhead rest hrest] at hpush
      cases hpush
    · rw [hharmless.reset hhead rest hrest] at hreset
      cases hreset
    · rw [hharmless.chmod hhead] at hchmod
      cases hchmod
    · rw [hharmless.del hhead] at hdel
      cases hdel
    · rw [hharmless.removeItem hhead] at hremove
      cases hremove
  · intro hplain
    constructor
    case code =>
      rw [Option.eq_none_iff_forall_ne_some]
      intro token htoken
      have hleading := hplain.code token htoken
      rw [hpassed.code htoken] at hleading
      cases hleading
    case clean =>
      intro hhead rest hrest
      by_contra hclean
      rw [Bool.not_eq_false] at hclean
      have hdirect := hplain.clean hhead rest hrest hclean
      rw [hpassed.clean hhead (hdirect.symm.trans hrest)] at hclean
      cases hclean
    case push =>
      intro hhead rest hrest
      by_contra hpush
      rw [Bool.not_eq_false] at hpush
      obtain ⟨hword, hdirect, token, hmem, htoken⟩ := hplain.push hhead rest hrest hpush
      exact hpassed.push hword (hdirect.symm.trans hrest) hmem htoken
    case reset =>
      intro hhead rest hrest
      by_contra hreset
      rw [Bool.not_eq_false] at hreset
      obtain ⟨hword, hdirect, hhard⟩ := hplain.reset hhead rest hrest hreset
      obtain ⟨tail, rfl⟩ := List.head?_eq_some_iff.mp hhard
      exact hpassed.reset hword (hdirect.symm.trans hrest)
    case find => exact hpassed.find
    case rm => exact hpassed.rm
    case chmod =>
      intro hhead
      by_contra hchmod
      rw [Bool.not_eq_false] at hchmod
      rw [hpassed.chmod (hplain.chmod hhead hchmod)] at hchmod
      cases hchmod
    case del =>
      intro hhead
      by_contra hdel
      rw [Bool.not_eq_false] at hdel
      rw [hpassed.del (hplain.del hhead hdel)] at hdel
      cases hdel
    case removeItem =>
      intro hhead
      by_contra hremove
      rw [Bool.not_eq_false] at hremove
      rw [hpassed.removeItem (hplain.removeItem hhead hremove)] at hremove
      cases hremove

/-- Tables that know nothing beyond ASCII. -/
def asciiTables : UnicodeTables where
  lowerOther _ c _ := [c]
  wordOther _ := false

theorem gitStatus_harmless_iff :
    Harmless asciiTables .posix (lit "git") [lit "status"] ↔
      SpelledPlainly asciiTables .posix (lit "git") [lit "status"] :=
  allowed_harmless_iff asciiTables .posix defaultCommandAllowlist _ _ (by decide)

/-- The code of `python -Ic` and the removal of `git -C . clean -f` are allowed. -/
theorem hidden_allowed :
    ((checkCommand asciiTables .posix defaultCommandAllowlist
        (.parts (lit "python" :: [lit "-Ic", lit "print(1)"]))).decision = .allow ∧
      ¬Harmless asciiTables .posix (lit "python") [lit "-Ic", lit "print(1)"]) ∧
    (checkCommand asciiTables .posix defaultCommandAllowlist
        (.parts (lit "git" :: [lit "-C", lit ".", lit "clean", lit "-f"]))).decision = .allow ∧
      ¬Harmless asciiTables .posix (lit "git") [lit "-C", lit ".", lit "clean", lit "-f"] := by
  refine ⟨⟨by decide, fun h => ?_⟩, by decide, fun h => ?_⟩
  · exact absurd h.code (by decide)
  · have hforced : cleans [lit "-f"] = false := h.clean (by decide) _ (by decide)
    exact absurd hforced (by decide)

end GuardCommand

end Icode
