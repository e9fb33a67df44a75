import Iac.Collections.Words
import Iac.Providers.Cron

namespace iac_providers.cron

/-- The header without the end of its line. -/
def header_line : List Char := "# Managed by iac. Do not edit by hand.".toList

def HEADER : List Char := header_line ++ ['\n']

def env_line (entry : String × String) : List Char := entry.1.toList ++ '=' :: entry.2.toList

def job_line (spec : CronJobSpec) : List Char :=
  (spec.schedule.getD "").toList ++ '\t' :: (spec.user.toList ++ '\t' :: (spec.command.getD "").toList)

/-- The content of the job's file. -/
def render (spec : CronJobSpec) : List Char :=
  HEADER ++ (spec.env.flatMap fun entry => env_line entry ++ ['\n']) ++ (if spec.env.isEmpty then [] else ['\n']) ++
    (job_line spec ++ ['\n'])

/-- Lines as cron reads them; each ends with a newline. -/
def split_lines (text : List Char) : List (List Char) := (text.splitOn '\n').dropLast

/-- What separates the fields of a job line. -/
def is_blank (c : Char) : Bool := c == ' ' || c == '\t'

/-- Five words or one that starts with `@`, the user, and the rest as the command. -/
def parse_job_line (line : List Char) : List (List Char) × List Char × List Char :=
  let line := line.dropWhile is_blank
  let (schedule, rest) := tokens.take_words is_blank (if line.head? = some '@' then 1 else 5) line
  let (user, rest) := tokens.next_word is_blank rest
  (schedule, user, rest.dropWhile is_blank)

/-- The fields that `validate_schedule` checks. -/
def schedule_fields (schedule : String) : List (List Char) :=
  match str.trim schedule.toList with
  | '@' :: rest => ['@' :: (split_whitespace rest).headD []]
  | trimmed => split_whitespace trimmed

/-- The lines of the file are the header, the variables and one job line, which
is read as the job. -/
def RendersJob (spec : CronJobSpec) : Prop :=
  ∃ job, split_lines (render spec) =
      header_line :: (spec.env.map env_line ++ (if spec.env.isEmpty then [] else [[]]) ++ [job]) ∧
    parse_job_line job = (schedule_fields (spec.schedule.getD ""), spec.user.toList, (spec.command.getD "").toList)

/-- The blanks of the schedule are spaces and tabs, none of them after an `@`,
and the command does not start with one. -/
structure PlainBlanks (spec : CronJobSpec) : Prop where
  schedule : ∀ c ∈ (spec.schedule.getD "").toList, str.is_whitespace c = true → is_blank c = true
  shorthand : ∀ c rest, str.trim (spec.schedule.getD "").toList = '@' :: c :: rest → str.is_whitespace c = false
  command : ∀ c, (spec.command.getD "").toList.head? = some c → is_blank c = false

theorem split_lines_cons {line : List Char} (hline : '\n' ∉ line) (rest : List Char) :
    split_lines (line ++ '\n' :: rest) = line :: split_lines rest := by
  unfold split_lines
  rw [List.splitOn_append_cons_self_of_not_mem hline, List.dropLast_cons_of_ne_nil (List.splitOn_ne_nil _ _)]

theorem split_lines_last (line : List Char) : split_lines (line ++ ['\n']) = line.splitOn '\n' := by
  unfold split_lines
  rw [List.splitOn_append_cons_self, List.splitOn_nil, List.dropLast_concat]

/-- A job that validation accepts. -/
structure Accepted (spec : CronJobSpec) : Prop where
  valid : spec.validate = .ok ()
  present : spec.state = .Present

theorem not_alphanum_of_whitespace {c : Char} (h : str.is_whitespace c = true) : c.isAlphanum = false := by
  simp only [str.is_whitespace, Bool.or_eq_true, Bool.and_eq_true, decide_eq_true_eq, beq_iff_eq] at h
  have hranges : c.isAlphanum = ((decide (65 ≤ c.val ∧ c.val ≤ 90) || decide (97 ≤ c.val) && decide (c.val ≤ 122)) ||
      decide (48 ≤ c.val) && decide (c.val ≤ 57)) := rfl
  simp only [hranges, Bool.or_eq_false_iff, Bool.and_eq_false_iff, decide_eq_false_iff_not, UInt32.le_iff_toNat_le]
  have hcode : c.val.toNat = c.toNat := rfl
  simp only [hcode]
  refine ⟨⟨?_, ?_⟩, ?_⟩
  · simp; omega
  · simp; omega
  · simp; omega

theorem whitespace_of_blank {c : Char} (h : is_blank c = true) : str.is_whitespace c = true := by
  simp only [is_blank, Bool.or_eq_true, beq_iff_eq] at h
  obtain rfl | rfl := h
  · decide
  · decide

/-- A user name and the key of a variable have no whitespace. -/
theorem name_char_not_whitespace {c : Char} (h : is_name_char c = true) : str.is_whitespace c = false := by
  by_contra hspace
  have halphanum := not_alphanum_of_whitespace (Bool.not_eq_false _ ▸ hspace)
  simp only [is_name_char, halphanum, Bool.false_or, Bool.or_eq_true, beq_iff_eq] at h
  obtain (rfl | rfl) | rfl := h
  · exact hspace (by decide)
  · exact hspace (by decide)
  · exact hspace (by decide)

theorem validate_user_ok {user : String} (h : validate_user user = .ok ()) :
    user.toList ≠ [] ∧ tokens.Solid str.is_whitespace user.toList := by
  rw [validate_user] at h
  split_ifs at h with hempty hchars
  simp only [Bool.not_eq_true, Bool.not_eq_false', List.all_eq_true] at hchars
  exact ⟨by simpa using hempty, fun c hc => name_char_not_whitespace (hchars c hc)⟩

theorem validate_env_ok {entry : String × String} (h : validate_env entry = .ok ()) : '\n' ∉ env_line entry := by
  simp only [validate_env, fallible.bind_eq_ok_iff] at h
  obtain ⟨⟨⟩, hkey, hvalue⟩ := h
  split_ifs at hvalue with hnewline
  replace hkey := named_ok_iff.mp hkey
  have hchars : ∀ c ∈ entry.1.toList, c.isAlphanum = true ∨ c = '_' := by
    unfold validate_env_key at hkey
    split at hkey
    · cases hkey
    · split_ifs at hkey with hfirst hall
      simp only [Bool.not_eq_true, Bool.not_eq_false', List.all_eq_true, Bool.or_eq_true, beq_iff_eq] at hall
      exact hall
  simp only [env_line, List.mem_append, List.mem_cons, not_or]
  refine ⟨fun hmem => ?_, by decide, by simpa using hnewline⟩
  obtain hc | hc := hchars _ hmem
  · exact absurd hc (by decide)
  · exact absurd hc (by decide)

theorem Accepted.spec {spec : CronJobSpec} (h : Accepted spec) :
    ∃ schedule command, spec.schedule = some schedule ∧ spec.command = some command ∧
      validate_schedule schedule = .ok () ∧ '\n' ∉ command.toList ∧
      validate_user spec.user = .ok () ∧ ∀ entry ∈ spec.env, '\n' ∉ env_line entry := by
  have hvalid := h.valid
  simp only [CronJobSpec.validate, fallible.bind_eq_ok_iff] at hvalid
  obtain ⟨⟨⟩, -, ⟨⟩, huser, ⟨⟩, -, ⟨⟩, henv, hjob⟩ := hvalid
  have henv : ∀ entry ∈ spec.env, '\n' ∉ env_line entry := fun entry hentry =>
    validate_env_ok (fallible.forM_ok_iff.mp henv entry hentry)
  simp only [CronJobSpec.validate_job, h.present] at hjob
  cases hschedule : spec.schedule with
  | none => simp [hschedule] at hjob
  | some schedule =>
    simp only [hschedule, fallible.bind_eq_ok_iff] at hjob
    obtain ⟨⟨⟩, hschedule, hcommand⟩ := hjob
    cases hsome : spec.command with
    | none => simp [hsome] at hcommand
    | some command =>
      simp only [hsome, validate_command] at hcommand
      split_ifs at hcommand with hnewline
      exact ⟨schedule, command, rfl, rfl, named_ok_iff.mp hschedule, by simpa using hnewline, named_ok_iff.mp huser, henv⟩

theorem split_render {spec : CronJobSpec} (henv : ∀ entry ∈ spec.env, '\n' ∉ env_line entry) :
    split_lines (render spec) =
      header_line :: (spec.env.map env_line ++ (if spec.env.isEmpty then [] else [[]]) ++ (job_line spec).splitOn '\n') := by
  have hentries (entries : List (String × String)) (hentries : ∀ entry ∈ entries, '\n' ∉ env_line entry) (rest : List Char) :
      split_lines ((entries.flatMap fun entry => env_line entry ++ ['\n']) ++ rest) =
        entries.map env_line ++ split_lines rest := by
    induction entries with
    | nil => rfl
    | cons entry entries ih =>
      have hrest := ih fun e he => hentries e (List.mem_cons_of_mem _ he)
      rw [List.flatMap_cons, List.append_assoc, List.append_assoc, List.singleton_append,
        split_lines_cons (hentries entry (List.mem_cons_self ..)), hrest]
      rfl
  have hheader : '\n' ∉ header_line := by decide
  unfold render HEADER
  rw [List.append_assoc, List.append_assoc, List.append_assoc, List.singleton_append, split_lines_cons hheader,
    hentries _ henv]
  cases hempty : spec.env.isEmpty with
  | true =>
    simp only [↓reduceIte, List.nil_append, List.append_nil, split_lines_last]
  | false =>
    have hblank : split_lines ('\n' :: (job_line spec ++ ['\n'])) = [] :: split_lines (job_line spec ++ ['\n']) :=
      split_lines_cons List.not_mem_nil _
    simp only [Bool.false_eq_true, ↓reduceIte, List.append_assoc, List.singleton_append, hblank, split_lines_last]

/-- The lines are right when there is one job line, and it is read as the job. -/
theorem renders_job_iff {spec : CronJobSpec} (henv : ∀ entry ∈ spec.env, '\n' ∉ env_line entry) :
    RendersJob spec ↔ '\n' ∉ job_line spec ∧
      parse_job_line (job_line spec) =
        (schedule_fields (spec.schedule.getD ""), spec.user.toList, (spec.command.getD "").toList) := by
  unfold RendersJob
  rw [split_render henv]
  constructor
  · rintro ⟨job, hlines, hparse⟩
    have hsplit : (job_line spec).splitOn '\n' = [job] := List.append_cancel_left (List.cons.inj hlines).2
    have hback : ['\n'].intercalate ((job_line spec).splitOn '\n') = job_line spec := List.intercalate_splitOn '\n'
    have hjob : job_line spec = job := by
      rw [← hback, hsplit, List.intercalate_singleton]
    refine ⟨fun hmem => ?_, hjob ▸ hparse⟩
    obtain ⟨before, after, heq⟩ := List.append_of_mem hmem
    rw [heq, List.splitOn_append_cons_self] at hsplit
    have hbefore := List.length_pos_of_ne_nil (List.splitOn_ne_nil '\n' before)
    have hafter := List.length_pos_of_ne_nil (List.splitOn_ne_nil '\n' after)
    have hlength := congrArg List.length hsplit
    simp only [List.length_append, List.length_cons, List.length_nil] at hlength
    omega
  · rintro ⟨hnewline, hparse⟩
    exact ⟨job_line spec, by rw [List.splitOn_eq_singleton hnewline], hparse⟩

theorem trim_split (text : List Char) :
    ∃ seps, (∀ c ∈ seps, str.is_whitespace c = true) ∧ text.dropWhile str.is_whitespace = str.trim text ++ seps :=
  ⟨_, fun _ hc => List.mem_rtakeWhile_imp hc, List.rdropWhile_append_rtakeWhile.symm⟩

/-- Trimming a text keeps its words. -/
theorem words_trim (text : List Char) : split_whitespace (str.trim text) = tokens.words str.is_whitespace text := by
  obtain ⟨seps, hseps, heq⟩ := trim_split text
  rw [← tokens.words_dropWhile, heq, tokens.words_append_seps hseps]
  rfl

/-- Whether the schedule starts with an `@` decides how many words are read. -/
def word_count (schedule : List Char) : Nat :=
  if (schedule.dropWhile str.is_whitespace).head? = some '@' then 1 else 5

theorem head_of_trim {text : List Char} {c : Char} {rest : List Char} (h : str.trim text = c :: rest) :
    (text.dropWhile str.is_whitespace).head? = some c := by
  obtain ⟨seps, -, heq⟩ := trim_split text
  rw [heq, h]
  rfl

theorem validate_shorthand_ok {rest : List Char} (h : validate_shorthand rest = .ok ()) :
    ∃ tag, tag ≠ [] ∧ split_whitespace rest = [tag] := by
  simp only [validate_shorthand] at h
  split_ifs at h with hshorthand hone
  obtain ⟨tag, htag⟩ := List.length_eq_one_iff.mp (not_not.mp hone)
  refine ⟨tag, ?_, htag⟩
  rintro rfl
  rw [htag] at hshorthand
  exact hshorthand (by decide)

/-- An accepted schedule without whitespace after an `@` has its fields as words. -/
theorem schedule_words {schedule : String} (hvalid : validate_schedule schedule = .ok ())
    (hshorthand : ∀ c rest, str.trim schedule.toList = '@' :: c :: rest → str.is_whitespace c = false) :
    tokens.words str.is_whitespace schedule.toList = schedule_fields schedule ∧
      (schedule_fields schedule).length = word_count schedule.toList := by
  rw [← words_trim]
  unfold validate_schedule at hvalid
  unfold schedule_fields word_count
  cases htrim : str.trim schedule.toList with
  | nil => simp [htrim] at hvalid
  | cons c rest =>
    rw [head_of_trim htrim]
    by_cases hat : c = '@'
    · subst hat
      simp only [htrim] at hvalid
      obtain ⟨tag, hne, hwords⟩ := validate_shorthand_ok hvalid
      have hplain : ∀ d, rest.head? = some d → str.is_whitespace d = false := by
        intro d hd
        obtain ⟨rest, rfl⟩ := List.head?_eq_some_iff.mp hd
        exact hshorthand d rest htrim
      simp only [hwords, List.headD_cons, List.length_singleton, ↓reduceIte, and_true]
      obtain ⟨-, hnil⟩ | ⟨-, hsolid, hends, hcons⟩ := tokens.words_cases str.is_whitespace rest
      · cases hnil.symm.trans hwords
      · obtain ⟨rfl, hrest⟩ := List.cons.inj (hcons.symm.trans hwords)
        have htake : rest.takeWhile str.is_whitespace = [] := by
          cases rest with
          | nil => rfl
          | cons d rest => simp [hplain d rfl]
        have htext := tokens.text_eq_next_word str.is_whitespace rest
        rw [htake, List.nil_append] at htext
        have hword : tokens.Solid str.is_whitespace ('@' :: (tokens.next_word str.is_whitespace rest).1) := by
          intro d hd
          obtain rfl | hd := List.mem_cons.mp hd
          · decide
          · exact hsolid d hd
        have happend := tokens.words_append hword (List.cons_ne_nil _ _) hends
        rw [List.cons_append, ← htext, hrest] at happend
        exact happend
    · have hfields : (match c :: rest with
          | '@' :: rest => ['@' :: (split_whitespace rest).headD []]
          | trimmed => split_whitespace trimmed) = split_whitespace (c :: rest) := by
        split
        · next heq => exact absurd (List.cons.inj heq).1 hat
        · rfl
      have hlength : (split_whitespace (c :: rest)).length = 5 := by
        rw [htrim] at hvalid
        split at hvalid
        · next heq => cases heq
        · next heq => exact absurd (List.cons.inj heq).1 hat
        · simp only at hvalid
          split_ifs at hvalid with hfive
          exact not_not.mp hfive
      simp only [hfields, hlength, Option.some.injEq, hat, ↓reduceIte, and_self]

theorem schedule_not_blank {schedule : String} (hvalid : validate_schedule schedule = .ok ()) :
    ∃ c, (schedule.toList.dropWhile str.is_whitespace).head? = some c := by
  cases htrim : str.trim schedule.toList with
  | nil => simp [validate_schedule, htrim] at hvalid
  | cons c rest => exact ⟨c, head_of_trim htrim⟩

/-- Where all whitespace is blank, cron skips the same of it in front. -/
theorem dropWhile_blank {text : List Char} (hplain : ∀ c ∈ text, str.is_whitespace c = true → is_blank c = true)
    {c : Char} (hhead : (text.dropWhile str.is_whitespace).head? = some c) (rest : List Char) :
    (text ++ rest).dropWhile is_blank = text.dropWhile str.is_whitespace ++ rest := by
  induction text with
  | nil => cases hhead
  | cons d text ih =>
    rw [List.cons_append, List.dropWhile_cons, List.dropWhile_cons]
    cases hd : str.is_whitespace d with
    | true =>
      rw [if_pos (hplain d (List.mem_cons_self ..) hd), if_pos rfl]
      refine ih (fun e he => hplain e (List.mem_cons_of_mem _ he)) ?_
      rw [List.dropWhile_cons, if_pos hd] at hhead
      exact hhead
    | false =>
      have hblank : is_blank d ≠ true := fun h => Bool.false_ne_true (hd.symm.trans (whitespace_of_blank h))
      rw [if_neg hblank, if_neg Bool.false_ne_true]
      rfl

/-- A job line whose blanks are plain is read as the words of its schedule, the
user and the command. -/
theorem parse_job_line_eq {schedule : String} {user command : List Char} {fields : List (List Char)}
    (hvalid : validate_schedule schedule = .ok ())
    (hplain : ∀ c ∈ schedule.toList, str.is_whitespace c = true → is_blank c = true)
    (hwords : tokens.words str.is_whitespace schedule.toList = fields)
    (hcount : fields.length = word_count schedule.toList) (huser : user ≠ [])
    (hsolid : tokens.Solid str.is_whitespace user) :
    parse_job_line (schedule.toList ++ '\t' :: (user ++ '\t' :: command)) =
      (fields, user, command.dropWhile is_blank) := by
  obtain ⟨c, hhead⟩ := schedule_not_blank hvalid
  have hline := dropWhile_blank hplain hhead ('\t' :: (user ++ '\t' :: command))
  have hagree : ∀ d ∈ schedule.toList.dropWhile str.is_whitespace, str.is_whitespace d = is_blank d := by
    intro d hd
    have hmem := (List.dropWhile_suffix _).subset hd
    rw [Bool.eq_iff_iff]
    exact ⟨hplain d hmem, whitespace_of_blank⟩
  have hblank : is_blank '\t' = true := rfl
  obtain ⟨seps, hseps, htake⟩ := tokens.take_words_append hblank (user ++ '\t' :: command) hagree
    ((tokens.words_dropWhile _ _).trans hwords)
  have hcount' : (if (schedule.toList.dropWhile str.is_whitespace ++ '\t' :: (user ++ '\t' :: command)).head? = some '@'
      then 1 else 5) = fields.length := by
    rw [hcount, word_count, List.head?_append, hhead]
    rfl
  have huser' : tokens.next_word is_blank (seps ++ '\t' :: (user ++ '\t' :: command)) = (user, '\t' :: command) := by
    have hnext := @tokens.next_word_append Char is_blank ('\t' :: command) user (seps ++ ['\t'])
      (fun d hd => by
        obtain hd | hd := List.mem_append.mp hd
        · exact hseps d hd
        · exact List.mem_singleton.mp hd ▸ hblank)
      (fun d hd => Bool.eq_false_iff.mpr fun h => Bool.false_ne_true ((hsolid d hd).symm.trans (whitespace_of_blank h)))
      huser (fun d hd => Option.some.inj hd ▸ hblank)
    simpa using hnext
  unfold parse_job_line
  simp only [hline, hcount', htake, huser', List.dropWhile_cons, hblank, ↓reduceIte]

/-- Whitespace that cron does not skip. -/
def is_other_space (c : Char) : Bool := str.is_whitespace c && !is_blank c

private theorem other_space_disjoint (c : Char) (h : is_blank c = true) : is_other_space c = false := by
  simp [is_other_space, h]

theorem countP_other_space_of_solid {text : List Char} (h : tokens.Solid str.is_whitespace text) :
    text.countP is_other_space = 0 :=
  List.countP_eq_zero.mpr fun c hc => by simp [is_other_space, h c hc]

/-- Reading a job line loses no whitespace but blanks. -/
theorem countP_parse_job_line {line : List Char} {fields : List (List Char)} {user command : List Char}
    (h : parse_job_line line = (fields, user, command)) :
    line.countP is_other_space = (fields.map (List.countP is_other_space)).sum + user.countP is_other_space +
      command.countP is_other_space := by
  have hline := tokens.countP_dropWhile other_space_disjoint line
  unfold parse_job_line at h
  simp only at h
  generalize line.dropWhile is_blank = start at h hline
  generalize (if start.head? = some '@' then 1 else 5) = n at h
  have hwords := tokens.countP_take_words other_space_disjoint n start
  rcases htake : tokens.take_words is_blank n start with ⟨fields', rest⟩
  have huser := tokens.countP_next_word other_space_disjoint rest
  rcases hnext : tokens.next_word is_blank rest with ⟨user', after⟩
  have hcommand := tokens.countP_dropWhile other_space_disjoint after
  rw [htake] at hwords h
  rw [hnext] at huser
  simp only [hnext, Prod.mk.injEq] at h
  obtain ⟨rfl, rfl, rfl⟩ := h
  simp only at hwords huser
  omega

theorem schedule_fields_solid {schedule : String} {field : List Char} (h : field ∈ schedule_fields schedule) :
    tokens.Solid str.is_whitespace field := by
  unfold schedule_fields at h
  split at h
  · next rest htrim =>
    obtain rfl := List.mem_singleton.mp h
    intro c hc
    obtain rfl | hc := List.mem_cons.mp hc
    · decide
    · cases hwords : split_whitespace rest with
      | nil => simp [hwords] at hc
      | cons tag tags =>
        have hmem : tag ∈ tokens.words str.is_whitespace rest := by
          change tag ∈ split_whitespace rest
          rw [hwords]
          exact List.mem_cons_self ..
        rw [hwords, List.headD_cons] at hc
        exact tokens.solid_of_mem_words hmem c hc
  · exact tokens.solid_of_mem_words h

theorem command_head {line : List Char} {fields : List (List Char)} {user command : List Char}
    (h : parse_job_line line = (fields, user, command)) {c : Char} (hc : command.head? = some c) : is_blank c = false := by
  have hcommand : ∃ rest : List Char, rest.dropWhile is_blank = command :=
    ⟨_, congrArg (fun parsed => parsed.2.2) h⟩
  obtain ⟨rest, rfl⟩ := hcommand
  have hnot := List.head?_dropWhile_not is_blank rest
  rw [hc] at hnot
  simpa using hnot

/-- An `@` before a blank is a word of its own. -/
theorem parse_lone_at {line : List Char} {c : Char} {rest : List Char} (hline : line.dropWhile is_blank = '@' :: c :: rest)
    (hc : is_blank c = true) : (parse_job_line line).1 = [['@']] := by
  have hnext : tokens.next_word is_blank ('@' :: c :: rest) = (['@'], c :: rest) := by
    have hword := @tokens.next_word_append Char is_blank (c :: rest) ['@'] [] (by simp) (by simp [tokens.Solid, is_blank])
      (by simp) (fun d hd => Option.some.inj hd ▸ hc)
    simpa using hword
  unfold parse_job_line
  simp only [hline, List.head?_cons, ↓reduceIte, tokens.take_words, hnext]

/-- The file of an accepted job installs that job, and nothing else, exactly
when the blanks of the job are plain. -/
theorem renders_job_iff_plain_blanks {spec : CronJobSpec} (haccepted : Accepted spec) :
    RendersJob spec ↔ PlainBlanks spec := by
  obtain ⟨schedule, command, hschedule, hcommand, hvalid, hcommandline, huser, henv⟩ := haccepted.spec
  obtain ⟨huserne, husersolid⟩ := validate_user_ok huser
  have hline : job_line spec = schedule.toList ++ '\t' :: (spec.user.toList ++ '\t' :: command.toList) := by
    simp [job_line, hschedule, hcommand]
  rw [renders_job_iff henv, hline, hschedule, hcommand, Option.getD_some, Option.getD_some]
  constructor
  · rintro ⟨-, hparse⟩
    have hplain : ∀ c ∈ schedule.toList, str.is_whitespace c = true → is_blank c = true := by
      have hcount := countP_parse_job_line hparse
      have hfields : ((schedule_fields schedule).map (List.countP is_other_space)).sum = 0 := by
        have hzero : (schedule_fields schedule).map (List.countP is_other_space) = (schedule_fields schedule).map fun _ => 0 :=
          List.map_congr_left fun field hfield => countP_other_space_of_solid (schedule_fields_solid hfield)
        simp [hzero]
      have htab : is_other_space '\t' = false := rfl
      simp only [List.countP_append, List.countP_cons, htab, hfields, Bool.false_eq_true, ↓reduceIte] at hcount
      have hzero : schedule.toList.countP is_other_space = 0 := by omega
      intro c hc hspace
      have hother := List.countP_eq_zero.mp hzero c hc
      simpa [is_other_space, hspace] using hother
    refine ⟨by simpa [hschedule] using hplain, fun c rest htrim => ?_, by simpa [hcommand] using fun c => command_head hparse⟩
    rw [hschedule, Option.getD_some] at htrim
    by_contra hspace
    have hspace := Bool.not_eq_false _ ▸ hspace
    obtain ⟨seps, -, hstart⟩ := trim_split schedule.toList
    rw [htrim, List.cons_append, List.cons_append] at hstart
    have hmem : c ∈ schedule.toList := by
      refine (List.dropWhile_suffix str.is_whitespace).subset ?_
      rw [hstart]
      simp
    have hskip := dropWhile_blank hplain (by rw [hstart]; rfl)
      ('\t' :: (spec.user.toList ++ '\t' :: command.toList))
    rw [hstart, List.cons_append, List.cons_append] at hskip
    have hfields := congrArg Prod.fst hparse
    rw [parse_lone_at hskip (hplain c hmem hspace)] at hfields
    have hshorthand : validate_shorthand (c :: rest) = .ok () := by
      simpa [validate_schedule, htrim] using hvalid
    obtain ⟨tag, hne, htag⟩ := validate_shorthand_ok hshorthand
    simp [schedule_fields, htrim, htag, hne.symm] at hfields
  · rintro ⟨hplain, hshorthand, hstart⟩
    simp only [hschedule, hcommand, Option.getD_some] at hplain hshorthand hstart
    obtain ⟨hwords, hcount⟩ := schedule_words hvalid hshorthand
    refine ⟨fun hmem => ?_, ?_⟩
    · simp only [List.mem_append, List.mem_cons] at hmem
      obtain hmem | hmem | hmem | hmem | hmem := hmem
      · exact absurd (hplain '\n' hmem (by decide)) (by decide)
      · exact absurd hmem (by decide)
      · exact absurd (husersolid '\n' hmem) (by decide)
      · exact absurd hmem (by decide)
      · exact hcommandline hmem
    · rw [parse_job_line_eq hvalid hplain hwords hcount huserne husersolid]
      have hdrop : command.toList.dropWhile is_blank = command.toList := by
        cases htext : command.toList with
        | nil => rfl
        | cons c rest => rw [List.dropWhile_cons, if_neg (Bool.eq_false_iff.mp (hstart c (by rw [htext]; rfl)))]
      rw [hdrop]

/-- A job of five fields and a variable. -/
def backup : CronJobSpec where
  name := "backup"
  schedule := some "0 3 * * *"
  command := some "/usr/local/bin/backup.sh"
  env := [("MAILTO", "ops@example.com")]

/-- The same job with a newline in its schedule. -/
def split_backup : CronJobSpec := { backup with schedule := some "0 3\n* * *" }

set_option maxRecDepth 2000 in
theorem backup_renders : RendersJob backup := by
  have hblanks : (((backup.schedule.getD "").toList).all fun c =>
      decide (str.is_whitespace c = true → is_blank c = true)) = true := by decide
  refine (renders_job_iff_plain_blanks ⟨by decide, rfl⟩).mpr
    ⟨str.forall_mem_of_all hblanks, fun c rest h => ?_, fun c h => ?_⟩
  · have hhead : (str.trim (backup.schedule.getD "").toList).head? = some '0' := by decide
    rw [h] at hhead
    exact absurd (Option.some.inj hhead) (by decide)
  · have hhead : (backup.command.getD "").toList.head? = some '/' := by decide
    rw [← Option.some.inj (hhead.symm.trans h)]
    decide

set_option maxRecDepth 2000 in
/-- Validation takes the newline for a blank between two fields. -/
theorem split_backup_is_no_job : Accepted split_backup ∧ ¬ RendersJob split_backup := by
  refine ⟨⟨by decide, rfl⟩, fun h => ?_⟩
  have henv : ∀ entry ∈ split_backup.env, '\n' ∉ env_line entry := by decide
  exact ((renders_job_iff henv).mp h).1 (by decide)

end iac_providers.cron
