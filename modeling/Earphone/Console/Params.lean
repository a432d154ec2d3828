import Mathlib.Algebra.GroupWithZero.Nat
import Earphone.Lib.Words
import Mathlib.Tactic.Common

/-!
This module contains the access of commands to their parameters.
-/

namespace Console

open List

structure CmdStr where
  bytes : List UInt8
  not_nul : ∀ b ∈ bytes, b ≠ 0
  len_lt : bytes.length < 2 ^ 32

def space : UInt8 := 0x20

def tab : UInt8 := 0x09

def isBlank (b : UInt8) : Bool := b == tab || b == space

structure Param where
  pParam : Option (List UInt8)
  len : Nat

def cliParamGetLoop : Nat → List UInt8 → Param → Param
  | 0, _, param => param
  | rounds + 1, cmdStr, param =>
    let cmdStr := cmdStr.dropWhile isBlank
    if cmdStr = [] then
      { param with pParam := none }
    else
      cliParamGetLoop rounds (cmdStr.dropWhile fun b => !isBlank b)
        { pParam := some cmdStr, len := (cmdStr.takeWhile fun b => !isBlank b).length }

def cliParamGet (cmdStr : List UInt8) (paramIdx : Nat) : Param :=
  cliParamGetLoop (paramIdx + 1) cmdStr { pParam := none, len := 0 }

def cliParamNumGetLoop : List UInt8 → Int → Bool → Int
  | [], paramNum, spaceFlag => if spaceFlag then paramNum - 1 else paramNum
  | b :: cmdStr, paramNum, spaceFlag =>
    if b = space then
      cliParamNumGetLoop cmdStr (if spaceFlag then paramNum else paramNum + 1) true
    else
      cliParamNumGetLoop cmdStr paramNum false

def cliParamNumGet (cmdStr : List UInt8) : Int := cliParamNumGetLoop cmdStr 0 false

section

inductive Fault where
  | null

structure Called (σ : Type) where
  app : σ
  buf : List UInt8
  ret : Bool

structure CliCmd (σ : Type) where
  nextSub : List (CliCmd σ)
  pCmd : List UInt8
  callback : List UInt8 → Nat → σ → Except Fault (Called σ)
  paramNum : Int
  pMatch : Option (List UInt8 → List UInt8 → Nat → Bool)

def CliCmd.matchCmd {σ : Type} (cmd : CliCmd σ) (cmdStr : List UInt8) (len : Nat) : Bool :=
  match cmd.pMatch with
  | none => cmd.pCmd.length == len && cmdStr.take len == cmd.pCmd.take len
  | some pMatch => pMatch cmdStr cmd.pCmd len

def promptSize : Nat := 120

def ascii (s : String) : List UInt8 := s.toList.map fun c => UInt8.ofNat c.toNat

def snprintf (n : Nat) (text : List UInt8) : List UInt8 := text.take (n - 1)

structure Cli (σ : Type) where
  app : σ
  pCliCmd : Option (CliCmd σ)
  cmdList : List (CliCmd σ)
  subcmdList : List (CliCmd σ)
  subcmdMode : Bool
  prompt : List UInt8
  cachedPrompt : List UInt8
  out : List UInt8

variable {σ : Type}

def cliCmdSearch (cmdStr : List UInt8) (len : Nat) (cmds : List (CliCmd σ)) :
    Option (CliCmd σ × Bool) :=
  (cmds.find? fun cmd => cmd.matchCmd cmdStr len).map fun cmd =>
    (cmd, !(decide (0 ≤ cmd.paramNum) && decide (cliParamNumGet cmdStr ≠ cmd.paramNum)))

def cliCmdSelect (cmdStr : List UInt8) (len : Nat) (cli : Cli σ) : Option (CliCmd σ × Bool) :=
  match cli.pCliCmd with
  | some cmd => some (cmd, true)
  | none => cliCmdSearch cmdStr len (if cli.subcmdMode then cli.subcmdList else cli.cmdList)

def subcmdPrompt (cmd : CliCmd σ) : List UInt8 :=
  let prompt := snprintf (promptSize - 2) (ascii "root@local:" ++ cmd.pCmd)
  prompt ++ snprintf 3 (ascii "# ")

def cliCmdDone (cmd : CliCmd σ) (cli : Cli σ) : Cli σ :=
  if cli.subcmdMode = false ∧ cmd.nextSub ≠ [] then
    { cli with
      pCliCmd := none
      subcmdMode := true
      subcmdList := cmd.nextSub
      cachedPrompt := snprintf promptSize cli.prompt
      prompt := subcmdPrompt cmd }
  else if cli.subcmdMode = true ∧ cmd.pCmd = ascii "exit" then
    { cli with
      pCliCmd := none
      subcmdMode := false
      subcmdList := []
      prompt := snprintf promptSize cli.cachedPrompt }
  else
    { cli with pCliCmd := none }

def cliCmdCall (cmd : CliCmd σ) (cmdStr : List UInt8) (bufLen : Nat) (cli : Cli σ) :
    Except Fault (Cli σ × Bool) := do
  let called ← cmd.callback cmdStr bufLen cli.app
  let cli := { cli with
    app := called.app
    out := called.buf
    pCliCmd := some cmd }
  if called.ret then
    return (cli, true)
  else
    return (cliCmdDone cmd cli, false)

def cliCmdProcess (input : List UInt8) (bufLen : Nat) (cli : Cli σ) : Except Fault (Cli σ × Bool) :=
  match cliParamGet input 0 with
  | { pParam := none, .. } => .ok ({ cli with out := [] }, false)
  | { pParam := some cmdStr, len } =>
    match cliCmdSelect cmdStr len cli with
    | none =>
      .ok ({ cli with out := snprintf bufLen (ascii "Invalid command '" ++ cmdStr ++
        ascii "'. Enter 'help' to view available commands.\r\n") }, false)
    | some (cmd, false) =>
      .ok ({ cli with
        out := snprintf bufLen (ascii "Incorrect command parameter(s). Enter 'help " ++ cmd.pCmd ++
          ascii "' to view correct format.\r\n")
        pCliCmd := none }, false)
    | some (cmd, true) => cliCmdCall cmd cmdStr bufLen cli

def cliCmdRounds (input : List UInt8) (bufLen : Nat) : Nat → Cli σ → Option (Cli σ)
  | 0, cli => some cli
  | rounds + 1, cli =>
    match cliCmdProcess input bufLen cli with
    | .ok (cli, true) => cliCmdRounds input bufLen rounds cli
    | _ => none

inductive ConsoleMode where
  | string
  | binary

def cliMode (cmdStr : List UInt8) (bufLen : Nat) (mode : ConsoleMode) :
    Except Fault (Called ConsoleMode) :=
  match (cliParamGet cmdStr 1).pParam with
  | none => .error .null
  | some param =>
    if param = ascii "string" then
      .ok ⟨.string, snprintf bufLen (ascii "Console enters " ++ param ++ ascii " mode.\r\n"), false⟩
    else if param = ascii "binary" then
      .ok ⟨.binary, snprintf bufLen (ascii "Console enters " ++ param ++ ascii " mode.\r\n"), false⟩
    else
      .ok ⟨mode, snprintf bufLen (ascii "Invalid param " ++ param ++
        ascii " (string or binary).\r\n"), false⟩

end

def isSpace (b : UInt8) : Bool := b == space

def IsWord (line : List UInt8) (i : Nat) (param : Param) : Prop :=
  match (Words.of isBlank line)[i]? with
  | none => param.pParam = none
  | some word => ∃ before after, line = before ++ word ++ after ∧
      param = { pParam := some (word ++ after), len := word.length } ∧
      Words.of isBlank before = (Words.of isBlank line).take i ∧
      Words.of isBlank after = (Words.of isBlank line).drop (i + 1)

theorem blank_of_space (b : UInt8) (h : isSpace b = true) : isBlank b = true := by
  simp only [isSpace, beq_iff_eq] at h
  simp [isBlank, h]

theorem not_space_of_not_blank (hb : isBlank b = false) : isSpace b = false := by
  cases h : isSpace b with
  | false => rfl
  | true => rw [blank_of_space b h] at hb; contradiction

theorem isBlank_eq (b : UInt8) (h : isSpace b = false) : isBlank b = (b == tab) := by
  simp only [isSpace, beq_eq_false_iff_ne, ne_eq] at h
  simp [isBlank, h]

theorem cliParamGetLoop_succ (n : Nat) (line : List UInt8) (param : Param) :
    Words.of isBlank line = [] ∧ (cliParamGetLoop (n + 1) line param).pParam = none ∨
    ∃ pre word after, line = pre ++ (word ++ after) ∧ Words.of isBlank pre = [] ∧
      Words.of isBlank line = word :: Words.of isBlank after ∧ Words.Cut isBlank after ∧
      cliParamGetLoop (n + 1) line param =
        cliParamGetLoop n after { pParam := some (word ++ after), len := word.length } := by
  have hline : line.takeWhile isBlank ++ line.dropWhile isBlank = line := takeWhile_append_dropWhile
  have hwords : Words.of isBlank line = Words.of isBlank (line.dropWhile isBlank) :=
    Words.of_dropWhile.symm
  rw [cliParamGetLoop]
  cases hrest : line.dropWhile isBlank with
  | nil =>
    rw [hrest, Words.of_nil] at hwords
    exact .inl ⟨hwords, rfl⟩
  | cons b rest =>
    have hb : isBlank b = false := by
      have h := head?_dropWhile_not isBlank line
      rw [hrest] at h
      simpa using h
    rw [hrest] at hline hwords
    rw [Words.of_cons hb] at hwords
    have hcons : (b :: rest).takeWhile (fun b => !isBlank b) ++
        (b :: rest).dropWhile (fun b => !isBlank b) = b :: rest :=
      takeWhile_append_dropWhile
    refine .inr ⟨line.takeWhile isBlank, (b :: rest).takeWhile fun b => !isBlank b,
      (b :: rest).dropWhile fun b => !isBlank b, ?_, Words.of_takeWhile, hwords,
      Words.cut_dropWhile _ _, ?_⟩
    . rw [hcons, hline]
    . simp only [reduceCtorEq, if_false, hcons]

theorem cliParamGetLoop_isWord (n : Nat) (line : List UInt8) (param : Param) :
    IsWord line n (cliParamGetLoop (n + 1) line param) := by
  induction n generalizing line param with
  | zero =>
    rcases cliParamGetLoop_succ 0 line param with
      ⟨hwords, hloop⟩ | ⟨pre, word, after, hline, hpre, hwords, -, hloop⟩
    . simpa [IsWord, hwords] using hloop
    . simp only [IsWord, hwords, getElem?_cons_zero]
      exact ⟨pre, after, by rw [hline, append_assoc], hloop, hpre, rfl⟩
  | succ n ih =>
    rcases cliParamGetLoop_succ (n + 1) line param with
      ⟨hwords, hloop⟩ | ⟨pre, word, after, hline, -, hwords, hcut, hloop⟩
    . simpa [IsWord, hwords] using hloop
    . have hfirst : Words.of isBlank (pre ++ word) = [word] := by
        have happ := Words.of_append_cut (pre ++ word) hcut
        rw [append_assoc, ← hline, hwords] at happ
        have hone : [word] ++ Words.of isBlank after = Words.of isBlank (pre ++ word) ++
            Words.of isBlank after := happ
        exact (append_cancel_right hone).symm
      have hnext := ih after { pParam := some (word ++ after), len := word.length }
      rw [← hloop] at hnext
      unfold IsWord at hnext ⊢
      rw [hwords, getElem?_cons_succ]
      split at hnext
      . exact hnext
      . next hi =>
        obtain ⟨before, rest, hafter, hparam, hbefore, hrest⟩ := hnext
        refine ⟨pre ++ word ++ before, rest, ?_, hparam, ?_, hrest⟩
        . simp only [hline, hafter, append_assoc]
        . have hcut' : Words.Cut isBlank before := by
            rw [hafter, append_assoc] at hcut
            exact hcut.left
          rw [Words.of_append_cut _ hcut', hfirst, hbefore]
          rfl

theorem cliParamGet_isWord (line : List UInt8) (i : Nat) : IsWord line i (cliParamGet line i) :=
  cliParamGetLoop_isWord i line _

theorem cliParamGet_ne_none_iff (line : List UInt8) (i : Nat) :
    (cliParamGet line i).pParam ≠ none ↔ i < (Words.of isBlank line).length := by
  have h := cliParamGet_isWord line i
  unfold IsWord at h
  split at h
  . next hi =>
    rw [h]
    have hlen := getElem?_eq_none_iff.mp hi
    simpa using hlen
  . next word hi =>
    obtain ⟨before, after, hline, hparam, hbefore, hafter⟩ := h
    obtain ⟨hlt, -⟩ := List.getElem?_eq_some_iff.mp hi
    rw [hparam]
    simpa using hlt

theorem cliParamNumGetLoop_eq (line : List UInt8) (n : Int) :
    cliParamNumGetLoop line n true = n - 1 + (Words.of isSpace line).length ∧
    cliParamNumGetLoop line n false =
      n + (Words.of isSpace (line.dropWhile fun b => !isSpace b)).length := by
  induction line generalizing n with
  | nil => simp [cliParamNumGetLoop]
  | cons b line ih =>
    cases hb : isSpace b with
    | true =>
      have heq : b = space := by simpa [isSpace] using hb
      have hdrop : (b :: line).dropWhile (fun b => !isSpace b) = b :: line := by simp [hb]
      constructor
      . rw [cliParamNumGetLoop, if_pos heq, Words.of_cons_sep hb]
        exact (ih n).1
      . have h := (ih (n + 1)).1
        rw [cliParamNumGetLoop, if_pos heq, hdrop, Words.of_cons_sep hb]
        simp only [Bool.false_eq_true, if_false]
        omega
    | false =>
      have hne : b ≠ space := by simpa [isSpace] using hb
      have hdrop : (b :: line).dropWhile (fun b => !isSpace b) =
          line.dropWhile fun b => !isSpace b := by simp [hb]
      have h := (ih n).2
      constructor
      . rw [cliParamNumGetLoop, if_neg hne, Words.of_cons hb, hdrop, length_cons]
        omega
      . rw [cliParamNumGetLoop, if_neg hne, hdrop]
        exact h

theorem cliParamNumGet_eq (hb : isBlank b = false) :
    cliParamNumGet (b :: line) = (Words.of isSpace (b :: line)).length - 1 := by
  rw [cliParamNumGet, (cliParamNumGetLoop_eq _ _).2, Words.of_cons (not_space_of_not_blank hb),
    length_cons]
  omega

def tabWords (line : List UInt8) : Nat :=
  (Words.of isSpace line).countP fun word => word.all (· == tab)

def tabBreaks (line : List UInt8) : Nat :=
  ((Words.of isSpace line).map fun word => (Words.of (· == tab) word).length - 1).sum

theorem length_sum (parts : List (List UInt8)) :
    (parts.map fun part => (Words.of (· == tab) part).length).sum +
        parts.countP (fun part => part.all (· == tab)) =
      (parts.map fun part => (Words.of (· == tab) part).length - 1).sum + parts.length := by
  induction parts with
  | nil => rfl
  | cons part parts ih =>
    simp only [map_cons, sum_cons, countP_cons, length_cons]
    cases htabs : part.all (· == tab) with
    | true =>
      have hnone : Words.of (· == tab) part = [] := Words.of_eq_nil_iff.mpr (all_eq_true.mp htabs)
      simp only [hnone, length_nil, if_true]
      omega
    | false =>
      have hsome : Words.of (· == tab) part ≠ [] := by
        intro hnone
        rw [all_eq_true.mpr (Words.of_eq_nil_iff.mp hnone)] at htabs
        contradiction
      have hpos := length_pos_iff.mpr hsome
      simp only [Bool.false_eq_true, if_false]
      omega

theorem words_length (line : List UInt8) :
    (Words.of isBlank line).length + tabWords line =
      tabBreaks line + (Words.of isSpace line).length := by
  have hinner : ∀ part ∈ Words.of isSpace line,
      Words.of isBlank part = Words.of (· == tab) part := by
    intro part hpart
    apply Words.of_congr
    intro b hb
    exact isBlank_eq b (Words.not_sep_of_mem hpart b hb)
  rw [← Words.of_flatMap blank_of_space line, length_flatMap, map_congr_left
    (fun part hpart => congrArg List.length (hinner part hpart))]
  exact length_sum (Words.of isSpace line)

section

variable {σ : Type}

def Checked (line : List UInt8) (cli : Cli σ) : Prop :=
  ∀ cmd ∈ cli.pCliCmd, 0 ≤ cmd.paramNum → cliParamNumGet line = cmd.paramNum

theorem cliCmdSelect_checked
    (hcli : Checked line cli) (hsel : cliCmdSelect line len cli = some (cmd, true))
    (hnum : 0 ≤ cmd.paramNum) : cliParamNumGet line = cmd.paramNum := by
  unfold cliCmdSelect at hsel
  split at hsel
  . next kept hkept =>
    injection hsel with hsel
    injection hsel with hcmd
    subst hcmd
    exact hcli kept hkept hnum
  . obtain ⟨found, -, hfound⟩ := Option.map_eq_some_iff.mp hsel
    injection hfound with hcmd hok
    subst hcmd
    simpa [hnum] using hok

theorem cliCmdProcess_checked
    (hline : cliParamGet input 0 = { pParam := some line, len }) (hcli : Checked line cli)
    (hstep : cliCmdProcess input bufLen cli = .ok (cli', true)) : Checked line cli' := by
  unfold cliCmdProcess at hstep
  rw [hline] at hstep
  simp only at hstep
  split at hstep
  . cases hstep
  . cases hstep
  . next cmd hsel =>
    have hcheck := cliCmdSelect_checked hcli hsel
    unfold cliCmdCall at hstep
    cases hcall : cmd.callback line bufLen cli.app with
    | error e => rw [hcall] at hstep; cases hstep
    | ok called =>
      rw [hcall] at hstep
      cases hret : called.ret with
      | false => simp [hret, bind, Except.bind, pure, Except.pure] at hstep
      | true =>
        simp only [hret, bind, Except.bind, pure, Except.pure, if_true, Except.ok.injEq,
          Prod.mk.injEq, and_true] at hstep
        subst hstep
        intro kept hkept
        cases hkept
        exact hcheck

theorem cliCmdRounds_checked
    (hline : cliParamGet input 0 = { pParam := some line, len }) (rounds : Nat)
    (hcli : Checked line cli)
    (hrun : cliCmdRounds input bufLen rounds cli = some cli') : Checked line cli' := by
  induction rounds generalizing cli with
  | zero =>
    cases hrun
    exact hcli
  | succ rounds ih =>
    unfold cliCmdRounds at hrun
    split at hrun
    . next cli1 hstep => exact ih (cliCmdProcess_checked hline hcli hstep) hrun
    . cases hrun

end

structure ParamsAgree (line : CmdStr) : Prop where
  count : ∀ i, 1 ≤ i → ((cliParamGet line.bytes i).pParam ≠ none ↔
    (i : Int) ≤ cliParamNumGet line.bytes)
  returned : ∀ i, 1 ≤ i → IsWord line.bytes i (cliParamGet line.bytes i)
  accepted : ∀ (σ : Type) (cli cli' : Cli σ) (cmd : CliCmd σ) (input : List UInt8)
    (bufLen len rounds : Nat), cli.pCliCmd = none →
    cliParamGet input 0 = { pParam := some line.bytes, len } →
    cliCmdRounds input bufLen rounds cli = some cli' →
    cliCmdSelect line.bytes len cli' = some (cmd, true) →
    ∀ i : Nat, 1 ≤ i → (i : Int) ≤ cmd.paramNum → (cliParamGet line.bytes i).pParam ≠ none

theorem paramsAgree_iff (line : CmdStr)
    (hbegin : ∃ b ∈ line.bytes.head?, isBlank b = false) :
    ParamsAgree line ↔ tabWords line.bytes = tabBreaks line.bytes := by
  obtain ⟨b, hhead, hb⟩ := hbegin
  obtain ⟨rest, hrest⟩ := head?_eq_some_iff.mp hhead
  have hnum : cliParamNumGet line.bytes = (Words.of isSpace line.bytes).length - 1 := by
    rw [hrest]
    exact cliParamNumGet_eq hb
  have hsum := words_length line.bytes
  have hpos : 0 < (Words.of isBlank line.bytes).length := by
    rw [hrest, Words.of_cons hb]
    exact Nat.succ_pos _
  constructor
  . intro h
    have hspaces : 0 < (Words.of isSpace line.bytes).length := by
      rw [hrest, Words.of_cons (not_space_of_not_blank hb)]
      exact Nat.succ_pos _
    -- neither scanner has a parameter at the index that the other has one less than
    have hfew := h.count (Words.of isSpace line.bytes).length hspaces
    have hmany := h.count (Words.of isBlank line.bytes).length hpos
    rw [cliParamGet_ne_none_iff, hnum] at hfew hmany
    omega
  . intro h
    have hcount : ∀ i : Nat, (cliParamGet line.bytes i).pParam ≠ none ↔
        (i : Int) ≤ cliParamNumGet line.bytes := by
      intro i
      rw [cliParamGet_ne_none_iff, hnum]
      omega
    refine ⟨fun i _ => hcount i, fun i _ => cliParamGet_isWord line.bytes i, ?_⟩
    intro σ cli cli' cmd input bufLen len rounds hnone hline hrun hsel i hi hle
    have hstart : Checked line.bytes cli := by
      intro cmd hcmd
      rw [hnone] at hcmd
      cases hcmd
    have hchecked := cliCmdRounds_checked hline rounds hstart hrun
    rw [hcount, cliCmdSelect_checked hchecked hsel (by omega)]
    exact hle

def modeString : CmdStr :=
  ⟨[109, 111, 100, 101, 32, 115, 116, 114, 105, 110, 103], by simp, by decide⟩

theorem paramsAgree_modeString :
    ParamsAgree modeString ↔ tabWords modeString.bytes = tabBreaks modeString.bytes :=
  paramsAgree_iff modeString ⟨109, rfl, by decide⟩

def modeTab : CmdStr := ⟨[109, 111, 100, 101, 32, 9], by simp, by decide⟩

theorem not_paramsAgree_modeTab :
    ¬ ParamsAgree modeTab ∧ cliParamNumGet modeTab.bytes = 1 ∧
      cliMode modeTab.bytes 120 .string = .error .null := by
  refine ⟨?_, by decide, rfl⟩
  intro h
  have hcount := h.count 1 (Nat.le_refl 1)
  have hnone : (cliParamGet modeTab.bytes 1).pParam = none := by decide
  have hnum : cliParamNumGet modeTab.bytes = 1 := by decide
  rw [hnone, hnum] at hcount
  exact hcount.mpr (Int.le_refl 1) rfl

end Console
