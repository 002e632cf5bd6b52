import Mathlib
import Nightshade.Foundation.Chronicle
import Nightshade.Schema.Plain
import Nightshade.Cli.Main

/-! What an operator can make the program do, whatever is typed and whatever the daemon answers: what it runs
outside of it, when a shell is open, what the prompt says, and when a session is closed. -/
namespace Nightshade.Cli
open Foundation Schema Configd

/-! ### Where a ping may go -/

/-- The characters of addresses and host names. -/
def isAddressed (c : Char) : Bool := c.isAlphanum || ['.',':','/','+','-','_','$'].contains c

instance : Covers isAddressed where
  alphanum h := by simp [isAddressed,h]
  mark h := by rw [isAddressed,List.contains_iff_mem.mpr h,Bool.or_true]

/-- A text that begins with something else than the mark of an option. -/
def Unflagged (s : List Char) : Prop := ∃ c, s.head? = some c ∧ c ≠ '-'

/-- A word that no program can take for an option, and no shell for more than a word. -/
structure Harmless (word : String) : Prop where
  unflagged : Unflagged word.toList
  addressed : Text isAddressed word.toList

section Addresses
open Value
variable {s rest : List Char}

theorem unflagged_some {q : Char → Bool} {most : ℕ} {taken : List Char} (hq : q '-' = false)
    (h : readSome q most s = some (taken,rest)) : Unflagged s := by
  unfold readSome at h
  cases s with
  | nil => simp at h
  | cons c s =>
    refine ⟨c,rfl,?_⟩
    rintro rfl
    simp [hq] at h

theorem unflagged_octet {n : ℕ} (h : readOctet s = some (n,rest)) : Unflagged s := by
  unfold readOctet at h
  split at h
  · cases h
  · next hread => exact unflagged_some (by decide) hread

theorem unflagged_ipv4 {octets : List ℕ} (h : readIpv4 s = some (octets,rest)) : Unflagged s := by
  simp only [readIpv4,Option.bind_eq_bind,Option.bind_eq_some_iff,Prod.exists] at h
  obtain ⟨a,s₁,ha,-⟩ := h
  exact unflagged_octet ha

theorem unflagged_group {n : ℕ} (h : readGroup s = some (n,rest)) : Unflagged s := by
  unfold readGroup at h
  split at h
  · cases h
  · next hread => exact unflagged_some (by decide) hread

theorem unflagged_char {d : Char} (hd : d ≠ '-') (h : readChar d s = some rest) : Unflagged s := by
  cases s with
  | nil => cases h
  | cons c s =>
    rw [readChar] at h
    split_ifs at h with hc
    exact ⟨c,rfl,hc ▸ hd⟩

/-- Either there is a group at the start, or nothing has been read. -/
theorem unflagged_groups (limit : ℕ) (s : List Char) :
    Unflagged s ∨ readGroups limit 0 s = ([],false,s) := by
  cases limit with
  | zero => exact .inr rfl
  | succ limit =>
    unfold readGroups
    dsimp only
    rw [if_pos rfl]
    split
    · next hdotted =>
      split_ifs at hdotted
      exact .inl (unflagged_ipv4 hdotted)
    · split
      · next hgroup => exact .inl (unflagged_group hgroup)
      · exact .inr rfl

theorem unflagged_ipv6 {groups : List ℕ} (h : readIpv6 s = some (groups,rest)) : Unflagged s := by
  obtain hstart | hnothing := unflagged_groups 8 s
  · exact hstart
  · unfold readIpv6 at h
    rw [hnothing] at h
    simp only [List.length_nil,OfNat.zero_ne_ofNat,if_false,Bool.false_eq_true] at h
    split at h
    · cases h
    · next hcolons =>
      obtain ⟨t,hfirst,-⟩ := Option.bind_eq_some_iff.mp hcolons
      exact unflagged_char (by decide) hfirst

theorem unflagged_ip (h : (parseIp s).isSome) : Unflagged s := by
  unfold parseIp at h
  split at h
  · next octets hv4 =>
    unfold parseIpv4 at hv4
    split at hv4
    · next hread => exact unflagged_ipv4 hread
    · cases hv4
  · rw [Option.isSome_map] at h
    unfold parseIpv6 at h
    split at h
    · next hread => exact unflagged_ipv6 hread
    · cases h

theorem unflagged_hostname {name : String} (h : isHostname name) : Unflagged name.toList := by
  simp only [isHostname,Bool.and_eq_true,Bool.not_eq_true',Bool.or_eq_false_iff,decide_eq_false_iff_not,
    List.all_eq_true] at h
  obtain ⟨⟨⟨⟨hne,-⟩,hdot⟩,-⟩,hlabels⟩ := h
  cases hname : name.toList with
  | nil => exact absurd (String.toList_eq_nil_iff.mp hname) hne
  | cons c s =>
    refine ⟨c,rfl,?_⟩
    rintro rfl
    -- The first label begins with the first character.
    have hsplit : split '.' name = (s.splitOn '.').modifyHead (List.cons '-') := by
      rw [split,hname]
      exact List.splitOnP_cons_eq_if_modifyHead '-' s
    obtain ⟨label,labels,hrest⟩ := List.exists_cons_of_ne_nil (List.splitOnP_ne_nil (· == '.') s)
    have hlabel := hlabels ('-'::label) (by rw [hsplit,List.splitOn,hrest]; exact List.mem_cons_self)
    simp at hlabel

theorem harmless_of_destination {word : String} (h : isDestination word) : Harmless word := by
  have hcases : (parseIp word.toList).isSome ∨ isHostname word := by
    rw [isDestination,Bool.or_eq_true] at h
    obtain h | h := h
    · left
      by_contra hno
      simp [ValueSpec.check,ValueType.check,ValueType.checkThat,hno,Except.isOk,Except.toBool] at h
    · right
      by_contra hno
      simp [ValueSpec.check,ValueType.check,ValueType.checkThat,hno,Except.isOk,Except.toBool] at h
  obtain hip | hname := hcases
  · exact ⟨unflagged_ip hip,text_ip hip⟩
  · exact ⟨unflagged_hostname hname,text_hostname hname⟩

end Addresses

/-! ### What the program goes by -/

/-- What is known of the shell after a deed, when that is what the deed is about. -/
def audit {I : Type} : (d : Deed) → Deed.Answer I d → Option Bool
  | .call (.shellSession entering), .ok (.response .ok) => some entering
  | .call (.shellSession _), _ => some false
  | _, _ => none

/-- What was typed, when the deed is that something was. -/
def signal {I : Type} : (d : Deed) → Deed.Answer I d → Option Signal
  | .readLine _, typed => some typed
  | _, _ => none

abbrev Acts (I : Type) := Past Deed (Deed.Answer I)

section Rules
variable {I : Type} (t : Terminal I) (past : Acts I)

/-- The daemon has let a shell be entered, and has not been told that it was left. -/
def entered : Bool := (past.findSome? (fun d => audit d.1 d.2)).getD false

def lastSignal : Option Signal := past.findSome? (fun d => signal d.1 d.2)

/-- There is no session to have: the daemon cannot be reached, or the terminal cannot be driven. -/
def Stranded : Prop := (∃ e, ⟨Deed.connect,.error e⟩ ∈ past) ∨ ∃ e, lastSignal past = some (.broken e)

/-- A line on which `exit discard` is typed. -/
def Discards (line : String) : Prop :=
  ∃ rest modifiers, typed t.regexError line = .command "exit" ("discard"::rest) modifiers

/-- A line on which the session is left. -/
def Leaves (line : String) : Prop :=
  ∃ verb rest modifiers, typed t.regexError line = .command verb rest modifiers ∧ verb ∈ ["exit","quit","logout"]

/-- Something typed of which a property holds. -/
def Signal.Says (P : String → Prop) : Signal → Prop
  | .line text | .hostCommand text => P text
  | _ => False

/-- The candidate may be thrown away: nobody is at a prompt, or it was typed there. -/
def MayDiscard (last : Option Signal) : Prop := ∀ signal, last = some signal → signal.Says (Discards t)

/-- What the daemon has just said that the candidate of a session comes to. -/
def Agreed (id : SessionId) : Prop :=
  past.head? = some ⟨.call (.request (.compare id)),.ok (.response (.changes []))⟩

/-- A command line session whose parts fit together. -/
structure Cli.Sane (cli : Cli) : Prop where
  session : cli.mode = .configuration ↔ cli.session.isSome
  path : (t.schema.resolve cli.prefixPath).isSome
  top : cli.mode = .operational → cli.prefixPath = Path.root

/-- The last thing that was done is to look what the daemon runs, what the session has, and which ports there are;
and the name of the box is the one that was seen. -/
def Cli.Refreshed (cli : Cli) : Prop :=
  ∃ shown before between ports, past = ⟨.ports,ports⟩::between ++ ⟨.call (.showRunning Path.root),shown⟩::before ∧
    (∀ d ∈ between, ∃ session, d.1 = .call (.showCandidate session Path.root)) ∧
    ∀ name, hostName shown = some name → cli.hostname = name

/-- What the program may do after what it has done. -/
structure Proper (d : Deed) : Prop where
  alive : ∀ message, d ≠ .panic message
  prompt : ∀ text, d = .readLine text → ∃ cli : Cli, cli.Sane t ∧ cli.Refreshed past ∧ text = cli.prompt
  program : ∀ argv, d = .execute argv →
    ∃ word, Harmless word ∧ (argv = ["ping","-c","5",word] ∨ argv = ["traceroute",word])
  shell : d = .shell → entered past ∨ Stranded past
  /-- With a shell open, nothing is done but to run it, to print, and to tell that it was left. -/
  open_ : entered past → d = .shell ∨ (∃ text, d = .print text ∨ d = .eprint text) ∨ d = .call (.shellSession false)
  close : ∀ id, d = .call (.request (.sessionClose id)) → Agreed past id ∨ MayDiscard t (lastSignal past)
  minutes : ∀ id comment minutes, d = .call (.request (.commit id comment (some minutes))) →
    0 < minutes ∧ minutes < 2^16

end Rules

/-! ### Deeds of no consequence -/

section Mere
variable {I α : Type} {t : Terminal I} {past : Acts I} {last : Option Signal}

/-- No shell is open, and something is the last that was typed. -/
structure Calm (last : Option Signal) (past : Acts I) : Prop where
  idle : entered past = false
  typed : lastSignal past = last

/-- What may be done after anything, with no shell open. -/
def Mere : Deed → Prop
  | .call (.request (.commit _ _ (some minutes))) => 0 < minutes ∧ minutes < 2^16
  | .call (.request (.sessionClose _)) | .call (.shellSession _) => False
  | .execute argv => ∃ word, Harmless word ∧ (argv = ["ping","-c","5",word] ∨ argv = ["traceroute",word])
  | .shell | .readLine _ | .panic _ => False
  | _ => True

theorem Calm.cons (h : Calm last past) {d : Deed} {r : Deed.Answer I d} (haudit : audit d r = none)
    (hsignal : signal d r = none) : Calm last (⟨d,r⟩::past) where
  idle := by rw [entered,List.findSome?_cons,haudit]; exact h.idle
  typed := by rw [lastSignal,List.findSome?_cons,hsignal]; exact h.typed

theorem Mere.unaudited {d : Deed} (h : Mere d) (r : Deed.Answer I d) : audit d r = none := by
  cases d with
  | call ask =>
    cases ask with
    | shellSession entering => exact absurd h id
    | _ => rfl
  | _ => rfl

theorem Mere.unsignalled {d : Deed} (h : Mere d) (r : Deed.Answer I d) : signal d r = none := by
  cases d with
  | readLine prompt => exact absurd h id
  | _ => rfl

theorem Mere.proper {d : Deed} (h : Mere d) (hcalm : Calm last past) : Proper t past d where
  alive message hd := by rw [hd] at h; exact h
  prompt text hd := by rw [hd] at h; exact absurd h id
  program argv hd := by rw [hd] at h; exact h
  shell hd := by rw [hd] at h; exact absurd h id
  open_ hopen := by rw [hcalm.idle] at hopen; cases hopen
  close id hd := by rw [hd] at h; exact absurd h (fun h => h)
  minutes id comment minutes hd := by rw [hd] at h; exact h

/-- The command does not end the session. -/
def stays : Done I → Bool
  | .ok (_,.leave) => false
  | _ => true

/-- A command whose deeds are of no consequence, and which does not end the session. -/
def Modest (p : Play I (Done I)) : Prop := ∀ past, p.Abides (fun _ d => Mere d) (fun _ r => stays r = true) past

theorem Modest.abides {p : Play I (Done I)} (h : Modest p) (hcalm : Calm last past) :
    p.Abides (Proper t) (fun past' r => Calm last past' ∧ stays r = true) past :=
  (h past).keeps (Calm last) (fun _ _ hcalm hd =>
    ⟨hd.proper hcalm,fun r => hcalm.cons (hd.unaudited r) (hd.unsignalled r)⟩) hcalm

theorem modest_done {r : Done I} (h : stays r = true) : Modest (pure r) := fun _ => h

theorem modest_ask {ask : Ask} {k : Except String (Reply I) → Play I (Done I)} (h : Mere (.call ask))
    (hk : ∀ r, Modest (k r)) : Modest (Client.call ask >>= k) := fun _ => ⟨h,fun r => hk r _⟩

theorem stays_told (kind : FailureKind) (message : String) : stays (.ok (told kind message) : Done I) = true := by
  cases kind <;> rfl

theorem modest_expectOk {ask : Ask} (h : Mere (.call ask)) : Modest (expectOk t ask) := by
  refine modest_ask h (fun r => ?_)
  split
  · exact modest_done rfl
  · exact modest_done rfl
  · exact modest_done (stays_told _ _)
  · exact modest_done rfl

theorem modest_expectConfig {ask : Ask} (h : Mere (.call ask)) : Modest (expectConfig t ask) := by
  refine modest_ask h (fun r => ?_)
  split
  · exact modest_done rfl
  · exact modest_done rfl
  · exact modest_done (stays_told _ _)
  · exact modest_done rfl

theorem modest_expectCommit {ask : Ask} (h : Mere (.call ask)) : Modest (expectCommit t ask) := by
  refine modest_ask h (fun r => ?_)
  split
  · exact modest_done rfl
  · exact modest_done rfl
  · exact modest_done (stays_told _ _)
  · exact modest_done rfl

theorem modest_showInterfaces (tail : List String) : Modest (showInterfaces t tail) := by
  unfold showInterfaces
  split
  · exact modest_done rfl
  · refine modest_ask trivial (fun r => ?_)
    split
    · exact modest_done rfl
    · exact modest_done rfl
    · exact modest_done (stays_told _ _)
    · exact modest_done rfl

theorem modest_opShow (rest : List String) : Modest (opShow t rest) := by
  unfold opShow
  split_ifs
  · exact modest_ask trivial (fun r => by split <;> exact modest_done rfl)
  · exact modest_expectConfig trivial
  · exact modest_ask trivial (fun r => by split <;> exact modest_done rfl)
  · exact modest_showInterfaces _
  · exact modest_done rfl

theorem modest_clear (rest : List String) : Modest (clear t rest) := by
  unfold clear
  split
  · exact modest_done rfl
  · exact modest_expectOk trivial

theorem modest_traceOrPing {program : String} (hprogram : program = "ping" ∨ program = "traceroute")
    (rest : List String) : Modest (traceOrPing program rest : Play I (Done I)) := by
  unfold traceOrPing
  split
  · next destination =>
    by_cases hdestination : isDestination destination
    · rw [if_pos hdestination]
      have hharmless := harmless_of_destination hdestination
      intro past
      obtain rfl | rfl := hprogram
      · exact ⟨⟨destination,hharmless,.inl rfl⟩,fun r => by rcases r with e | _ | _ <;> rfl⟩
      · exact ⟨⟨destination,hharmless,.inr (by simp)⟩,fun r => by rcases r with e | _ | _ <;> rfl⟩
    · rw [if_neg hdestination]
      exact modest_done rfl
  · exact modest_done rfl

theorem modest_showConfig (session : SessionId) (at_ : Path) : Modest (showConfig t session at_) := by
  refine modest_ask trivial (fun r => ?_)
  split
  · exact modest_done rfl
  · exact modest_ask trivial (fun r => by split <;> exact modest_done rfl)
  · exact modest_done rfl

theorem modest_compare (session : SessionId) : Modest (compare t session) := by
  refine modest_ask trivial (fun r => ?_)
  split
  · exact modest_done rfl
  · split_ifs <;> exact modest_done rfl
  · exact modest_done rfl

theorem parseNat_lt {bound n : ℕ} {digits : List Char} (h : Value.parseNat bound digits = some n) : n < bound := by
  unfold Value.parseNat at h
  dsimp only at h
  rw [Option.ite_none_right_eq_some,Bool.and_eq_true,decide_eq_true_eq] at h
  rw [← Option.some.inj h.2]
  exact h.1.2

/-- A commit is confirmed within some minutes, and within as many as a request can carry. -/
theorem commitWords_minutes (rest : List String) (comment : Option String) (confirmMinutes : Option ℕ)
    (h : ∀ minutes, confirmMinutes = some minutes → 0 < minutes ∧ minutes < 2^16) {comment' : Option String}
    {confirmMinutes' : Option ℕ} (hwords : commitWords rest comment confirmMinutes = .ok (comment',confirmMinutes')) :
    ∀ minutes, confirmMinutes' = some minutes → 0 < minutes ∧ minutes < 2^16 := by
  fun_induction commitWords rest comment confirmMinutes with
  | case1 comment confirmMinutes =>
    cases hwords
    exact h
  | case2 comment confirmMinutes word rest minutes hparse hpos ih =>
    refine ih (fun minutes' hminutes => ?_) hwords
    rw [← Option.some.inj hminutes]
    exact ⟨hpos,parseNat_lt hparse⟩
  | case6 comment confirmMinutes text rest hword ih => exact ih h hwords
  | case3 | case4 | case5 | case7 | case8 => cases hwords

theorem modest_commit (session : SessionId) (rest : List String) : Modest (commit t session rest) := by
  unfold commit
  split
  · exact modest_done rfl
  · next comment confirmMinutes hwords =>
    refine modest_expectCommit ?_
    have hminutes := commitWords_minutes rest none none nofun hwords
    cases confirmMinutes with
    | none => trivial
    | some minutes => exact hminutes minutes rfl

theorem modest_rollback (session : SessionId) (rest : List String) : Modest (rollback t session rest) := by
  unfold rollback
  split
  · split
    · exact modest_expectOk trivial
    · exact modest_done rfl
  · exact modest_done rfl

end Mere

/-! ### A command -/

section Commands
variable {I : Type} {t : Terminal I} {past : Acts I} {last : Option Signal} {cli : Cli}

/-- A shell may be open, and something is the last that was typed. -/
structure Open (last : Option Signal) (past : Acts I) : Prop where
  entered : entered past = true
  typed : lastSignal past = last

theorem Open.cons (h : Open last past) {d : Deed} {r : Deed.Answer I d} (haudit : audit d r = none)
    (hsignal : signal d r = none) : Open last (⟨d,r⟩::past) where
  entered := by rw [Cli.entered,List.findSome?_cons,haudit]; exact h.entered
  typed := by rw [lastSignal,List.findSome?_cons,hsignal]; exact h.typed

theorem Open.proper (h : Open last past) {d : Deed}
    (hd : d = .shell ∨ (∃ text, d = .print text ∨ d = .eprint text) ∨ d = .call (.shellSession false)) :
    Proper t past d where
  alive message := by rintro rfl; simp at hd
  prompt text := by rintro rfl; simp at hd
  program argv := by rintro rfl; simp at hd
  shell _ := .inl h.entered
  open_ _ := hd
  close id := by rintro rfl; simp at hd
  minutes id comment minutes := by rintro rfl; simp at hd

theorem Open.print (h : Open last past) (text : String) : Open last (⟨.print text,()⟩::past) := h.cons rfl rfl

theorem Open.eprint (h : Open last past) (text : String) : Open last (⟨.eprint text,()⟩::past) := h.cons rfl rfl

theorem Open.shell (h : Open last past) (r : Except String Unit) : Open last (⟨.shell,r⟩::past) := h.cons rfl rfl

/-- Telling that the shell was left closes it, whatever is answered. -/
theorem calm_left (htyped : lastSignal past = last) (r : Except String (Reply I)) :
    Calm last (⟨.call (.shellSession false),r⟩::past) where
  idle := by
    have haudit : audit (.call (.shellSession false)) r = some false := by
      unfold audit
      split <;> simp_all
    rw [Cli.entered,List.findSome?_cons,haudit]
    rfl
  typed := htyped

section Steps
variable {α : Type} {post : Acts I → α → Prop}

theorem abides_ask {ask : Ask} {k : Except String (Reply I) → Play I α} (h : Proper t past (.call ask))
    (hk : ∀ r, (k r).Abides (Proper t) post (⟨.call ask,r⟩::past)) :
    (Client.call ask >>= k).Abides (Proper t) post past := ⟨h,hk⟩

theorem abides_print {text : String} {k : Unit → Play I α} (h : Proper t past (.print text))
    (hk : (k ()).Abides (Proper t) post (⟨.print text,()⟩::past)) :
    (print text >>= k).Abides (Proper t) post past := ⟨h,fun _ => hk⟩

theorem abides_eprint {text : String} {k : Unit → Play I α} (h : Proper t past (.eprint text))
    (hk : (k ()).Abides (Proper t) post (⟨.eprint text,()⟩::past)) :
    (eprint text >>= k).Abides (Proper t) post past := ⟨h,fun _ => hk⟩

theorem abides_connect {k : Except String Unit → Play I α} (h : Proper t past .connect)
    (hk : ∀ r, (k r).Abides (Proper t) post (⟨.connect,r⟩::past)) :
    (Client.connect >>= k).Abides (Proper t) post past := ⟨h,hk⟩

theorem abides_readFile {path : String} {k : Except String String → Play I α} (h : Proper t past (.readFile path))
    (hk : ∀ r, (k r).Abides (Proper t) post (⟨.readFile path,r⟩::past)) :
    (readFile path >>= k).Abides (Proper t) post past := ⟨h,hk⟩

theorem abides_readLine {prompt : String} {k : Signal → Play I α} (h : Proper t past (.readLine prompt))
    (hk : ∀ r, (k r).Abides (Proper t) post (⟨.readLine prompt,r⟩::past)) :
    (readLine prompt >>= k).Abides (Proper t) post past := ⟨h,hk⟩

theorem abides_shell {k : Except String Unit → Play I α} (h : Proper t past .shell)
    (hk : ∀ r, (k r).Abides (Proper t) post (⟨.shell,r⟩::past)) :
    (Shell.run >>= k).Abides (Proper t) post past := ⟨h,hk⟩

end Steps

theorem proper_permission (h : Calm last past) : Proper t past (.call (.shellSession true)) where
  alive _ := nofun
  prompt _ := nofun
  program _ := nofun
  shell := nofun
  open_ hopen := by rw [h.idle] at hopen; cases hopen
  close _ := nofun
  minutes _ _ _ := nofun

/-- The daemon is asked before the shell is entered, and told when it has been left. -/
theorem shell_abides (hcalm : Calm last past) :
    (shell t).Abides (Proper t) (fun past' r => Calm last past' ∧ stays r = true) past := by
  refine abides_ask (proper_permission hcalm) (fun r => ?_)
  have hrefused : r ≠ .ok (.response .ok) → Calm last (⟨.call (.shellSession true),r⟩::past) := by
    intro hr
    have haudit : audit (.call (.shellSession true)) r = some false := by
      unfold audit
      split <;> simp_all
    exact ⟨by rw [Cli.entered,List.findSome?_cons,haudit]; rfl,hcalm.typed⟩
  split
  · exact ⟨hrefused nofun,rfl⟩
  · have hopen : Open last (⟨.call (.shellSession true),.ok (.response .ok)⟩::past) := ⟨rfl,hcalm.typed⟩
    refine abides_print (hopen.proper (.inr (.inl ⟨_,.inl rfl⟩))) ?_
    have hopen := hopen.print "entering a shell; type 'operational' or exit to return\n"
    refine abides_shell (hopen.proper (.inl rfl)) (fun outcome => ?_)
    have hopen := hopen.shell outcome
    cases outcome with
    | ok _ =>
      refine abides_ask (hopen.proper (.inr (.inr rfl))) (fun r => ?_)
      have hleft := calm_left hopen.typed r
      cases r with
      | error e => exact ⟨hleft,rfl⟩
      | ok reply => exact ⟨hleft,rfl⟩
    | error e =>
      refine abides_eprint (hopen.proper (.inr (.inl ⟨_,.inr rfl⟩))) ?_
      have hopen := hopen.eprint (e ++ "\n")
      refine abides_ask (hopen.proper (.inr (.inr rfl))) (fun r => ?_)
      have hleft := calm_left hopen.typed r
      cases r with
      | error e => exact ⟨hleft,rfl⟩
      | ok reply => exact ⟨hleft,rfl⟩
  · exact ⟨hrefused nofun,stays_told _ _⟩
  · next reply hok hfailed => exact ⟨hrefused (fun h => hok (Except.ok.inj h)),rfl⟩

/-- What a command leaves: no shell, the same typed last, and a session whose parts fit together. -/
structure Left (t : Terminal I) (last : Option Signal) (past : Acts I) (cli : Cli) : Prop where
  calm : Calm last past
  sane : cli.Sane t

theorem resolve_dropLast {schema : Schema} {path : Path} (h : (schema.resolve path).isSome) :
    (schema.resolve path.dropLast).isSome := by
  obtain rfl | ⟨path,last,rfl⟩ := List.eq_nil_or_concat' path
  · exact h
  · rw [List.dropLast_concat]
    rw [Schema.resolve,List.foldlM_append] at h
    cases hpath : schema.resolve path with
    | none =>
      rw [Schema.resolve] at hpath
      simp [hpath] at h
    | some location => rfl

theorem sane_opened (cli : Cli) (id : SessionId) :
    Cli.Sane t {cli with session := some id, mode := .configuration, prefixPath := Path.root} where
  session := by simp
  path := rfl
  top h := by cases h

theorem sane_closed (cli : Cli) :
    Cli.Sane t {cli with session := none, mode := .operational, prefixPath := Path.root} where
  session := by simp
  path := rfl
  top _ := rfl

/-- The prefix is moved to another path of the schema. -/
theorem Cli.Sane.moved (h : cli.Sane t) (hmode : cli.mode = .configuration) {path : Path}
    (hpath : (t.schema.resolve path).isSome) : Cli.Sane t {cli with prefixPath := path} where
  session := h.session
  path := hpath
  top htop := by rw [hmode] at htop; cases htop

theorem unmoved_abides {command : Play I (Done I)} (hsane : cli.Sane t)
    (h : command.Abides (Proper t) (fun past' r => Calm last past' ∧ stays r = true) past) :
    (cli.unmoved command).Abides (Proper t) (fun past' r => Left t last past' r.2 ∧ stays r.1 = true) past :=
  Prog.Abides.bind (h.weaken (fun _ _ h => ⟨⟨h.1,hsane⟩,h.2⟩))

theorem configure_abides (hsane : cli.Sane t) (hcalm : Calm last past) :
    (cli.configure t).Abides (Proper t) (fun past' r => Left t last past' r.2 ∧ stays r.1 = true) past := by
  refine abides_ask (Mere.proper trivial hcalm) (fun r => ?_)
  have hcalm : Calm last (⟨.call (.request .sessionOpen),r⟩::past) := hcalm.cons rfl rfl
  split
  · exact ⟨⟨hcalm,hsane⟩,rfl⟩
  · exact ⟨⟨hcalm,sane_opened cli _⟩,rfl⟩
  · exact ⟨⟨hcalm,hsane⟩,rfl⟩

/-- In operational mode only the words for leaving leave. -/
theorem operational_abides (hsane : cli.Sane t) (hcalm : Calm last past) (verb : String) (rest : List String) :
    (cli.operational t verb rest).Abides (Proper t)
      (fun past' r => Left t last past' r.2 ∧ (stays r.1 = true ∨ verb ∈ ["exit","quit","logout"])) past := by
  have hstays : ∀ {p : Play I (Done I × Cli)},
      p.Abides (Proper t) (fun past' r => Left t last past' r.2 ∧ stays r.1 = true) past →
      p.Abides (Proper t) (fun past' r => Left t last past' r.2 ∧ (stays r.1 = true ∨ verb ∈ ["exit","quit","logout"]))
        past := fun h => h.weaken (fun _ _ h => ⟨h.1,.inl h.2⟩)
  have hmodest : ∀ {command : Play I (Done I)}, Modest command →
      (cli.unmoved command).Abides (Proper t) (fun past' r => Left t last past' r.2 ∧ stays r.1 = true) past :=
    fun h => unmoved_abides hsane (h.abides hcalm)
  unfold Cli.operational
  split_ifs with hshow hconfigure hclear hshell hping htraceroute hexit hhelp
  · exact hstays (hmodest (modest_opShow rest))
  · exact hstays (configure_abides hsane hcalm)
  · exact hstays (hmodest (modest_clear rest))
  · exact hstays (unmoved_abides hsane (shell_abides hcalm))
  · exact hstays (hmodest (modest_traceOrPing (.inl rfl) rest))
  · exact hstays (hmodest (modest_traceOrPing (.inr rfl) rest))
  · exact ⟨⟨hcalm,hsane⟩,.inr (by simpa using hexit)⟩
  · exact ⟨⟨hcalm,hsane⟩,.inl rfl⟩
  · exact ⟨⟨hcalm,hsane⟩,.inl rfl⟩

/-- A session is closed when that may be. -/
theorem close_abides (hcalm : Calm last past) {session : SessionId}
    (hclose : Agreed past session ∨ MayDiscard t last) (hsane : cli.Sane t) :
    (cli.close session).Abides (Proper t) (fun past' r => Left t last past' r.2 ∧ stays r.1 = true) past := by
  have hproper : Proper t past (.call (.request (.sessionClose session))) :=
    { alive := fun _ => nofun
      prompt := fun _ => nofun
      program := fun _ => nofun
      shell := nofun
      open_ := fun hopen => by rw [hcalm.idle] at hopen; cases hopen
      close := fun id hid => by cases hid; rwa [hcalm.typed]
      minutes := fun _ _ _ => nofun }
  refine abides_ask hproper (fun r => ?_)
  have hcalm : Calm last (⟨.call (.request (.sessionClose session)),r⟩::past) := hcalm.cons rfl rfl
  split
  · exact ⟨⟨hcalm,hsane⟩,rfl⟩
  · exact ⟨⟨hcalm,sane_closed cli⟩,rfl⟩

theorem leaveConfiguration_abides (hsane : cli.Sane t) (hcalm : Calm last past) (session : SessionId)
    {rest : List String} (hdiscard : rest.head? = some "discard" → MayDiscard t last) :
    (cli.leaveConfiguration t session rest).Abides (Proper t)
      (fun past' r => Left t last past' r.2 ∧ stays r.1 = true) past := by
  unfold Cli.leaveConfiguration
  split_ifs with hrest
  · exact close_abides hcalm (.inr (hdiscard hrest)) hsane
  · refine abides_ask (Mere.proper trivial hcalm) (fun r => ?_)
    have hcalm : Calm last (⟨.call (.request (.compare session)),r⟩::past) := hcalm.cons rfl rfl
    split
    · exact ⟨⟨hcalm,hsane⟩,rfl⟩
    · next changes =>
      cases changes with
      | nil => exact close_abides hcalm (.inl rfl) hsane
      | cons change changes => exact ⟨⟨hcalm,hsane⟩,rfl⟩
    · exact ⟨⟨hcalm,hsane⟩,rfl⟩

theorem edit_abides (hsane : cli.Sane t) (hmode : cli.mode = .configuration) (hcalm : Calm last past)
    (rest : List String) :
    (cli.edit t rest).Abides (Proper t) (fun past' r => Left t last past' r.2 ∧ stays r.1 = true) past := by
  unfold Cli.edit
  dsimp only
  split_ifs with hresolve
  · exact ⟨⟨hcalm,hsane⟩,rfl⟩
  · exact ⟨⟨hcalm,hsane.moved hmode (by simpa [Option.isSome_iff_ne_none] using hresolve)⟩,rfl⟩

theorem configuration_abides (hsane : cli.Sane t) (hmode : cli.mode = .configuration) (hcalm : Calm last past)
    (verb : String) (rest : List String)
    (hdiscard : verb = "exit" → rest.head? = some "discard" → MayDiscard t last) :
    (cli.configuration t verb rest).Abides (Proper t)
      (fun past' r => Left t last past' r.2 ∧ stays r.1 = true) past := by
  have hsome := hsane.session.mp hmode
  have hmodest : ∀ {command : Play I (Done I)}, Modest command →
      (cli.unmoved command).Abides (Proper t) (fun past' r => Left t last past' r.2 ∧ stays r.1 = true) past :=
    fun h => unmoved_abides hsane (h.abides hcalm)
  unfold Cli.configuration
  split
  · next hnone => rw [hnone] at hsome; cases hsome
  next session hsession =>
  refine Prog.abides_ite (fun _ => ?_) (fun _ => ?_)
  · refine hmodest (modest_expectOk ?_)
    unfold Cli.editing
    dsimp only
    split_ifs <;> trivial
  refine Prog.abides_ite (fun _ => hmodest (modest_showConfig _ _)) (fun _ => ?_)
  refine Prog.abides_ite (fun _ => hmodest (modest_compare _)) (fun _ => ?_)
  refine Prog.abides_ite (fun _ => hmodest (modest_commit _ _)) (fun _ => ?_)
  refine Prog.abides_ite (fun _ => hmodest (modest_expectCommit trivial)) (fun _ => ?_)
  refine Prog.abides_ite (fun _ => hmodest (modest_expectOk trivial)) (fun _ => ?_)
  refine Prog.abides_ite (fun _ => hmodest (modest_expectOk trivial)) (fun _ => ?_)
  refine Prog.abides_ite (fun _ => hmodest (modest_expectOk trivial)) (fun _ => ?_)
  refine Prog.abides_ite (fun _ => hmodest (modest_rollback _ _)) (fun _ => ?_)
  refine Prog.abides_ite (fun _ => edit_abides hsane hmode hcalm rest) (fun _ => ?_)
  refine Prog.abides_ite (fun _ => ⟨⟨hcalm,hsane.moved hmode (resolve_dropLast hsane.path)⟩,rfl⟩) (fun _ => ?_)
  refine Prog.abides_ite (fun _ => ⟨⟨hcalm,hsane.moved hmode rfl⟩,rfl⟩) (fun _ => ?_)
  refine Prog.abides_ite (fun hexit => leaveConfiguration_abides hsane hcalm session (hdiscard hexit)) (fun _ => ?_)
  refine Prog.abides_ite (fun _ => ⟨⟨hcalm,hsane⟩,rfl⟩) (fun _ => ?_)
  exact Prog.abides_ite (fun _ => ⟨⟨hcalm,hsane⟩,rfl⟩) (fun _ => ⟨⟨hcalm,hsane⟩,rfl⟩)

theorem dispatch_abides (hsane : cli.Sane t) (hcalm : Calm last past) (command : String)
    (hdiscard : ∀ rest, Path.parse command = .ok ("exit"::"discard"::rest) → MayDiscard t last) :
    (cli.dispatch t command).Abides (Proper t) (fun past' r => Left t last past' r.2 ∧ (stays r.1 = true ∨
      ∃ verb rest, Path.parse command = .ok (verb::rest) ∧ verb ∈ ["exit","quit","logout"])) past := by
  unfold Cli.dispatch
  split
  · exact ⟨⟨hcalm,hsane⟩,.inl rfl⟩
  · exact ⟨⟨hcalm,hsane⟩,.inl rfl⟩
  · next verb rest hparse =>
    unfold Cli.command
    cases hmode : cli.mode with
    | operational =>
      exact (operational_abides hsane hcalm verb rest).weaken (fun _ _ h =>
        ⟨h.1,h.2.imp_right (fun hverb => ⟨verb,rest,hparse,hverb⟩)⟩)
    | configuration =>
      refine (configuration_abides hsane hmode hcalm verb rest ?_).weaken (fun _ _ h => ⟨h.1,.inl h.2⟩)
      rintro rfl hrest
      obtain ⟨rest,rfl⟩ := List.head?_eq_some_iff.mp hrest
      exact hdiscard rest hparse

/-! ### A line -/

/-- The command of a line is what the line is taken for. -/
theorem typed_eq {line command : String} {modifiers : List Pipe.Modifier} {verb : String} {rest : List String}
    (hline : (Lexer.trim isWhitespace line.toList).isEmpty = false)
    (hquestion : question (Lexer.trim isWhitespace line.toList) = none)
    (hsplit : Pipe.split t.regexError (Lexer.trim isWhitespace line.toList) = .ok (command,modifiers))
    (hparse : Path.parse command = .ok (verb::rest)) :
    Cli.typed t.regexError line = .command verb rest modifiers := by
  have hne : Lexer.trim isWhitespace line.toList ≠ [] := by
    intro h
    rw [h] at hline
    cases hline
  rw [Cli.typed]
  simp only [if_neg hne,hquestion,hsplit,hparse]

theorem emit_abides (hcalm : Calm last past) (output : Output (Ifstate.View × I)) (modifiers : List Pipe.Modifier) :
    (emit t output modifiers).Abides (Proper t) (fun past' _ => Calm last past') past := by
  unfold emit
  dsimp only
  split_ifs
  · exact hcalm
  · exact ⟨Mere.proper trivial hcalm,fun _ => hcalm.cons rfl rfl⟩

/-- A typed line leaves the session whole, and ends it only when that is what it says. -/
theorem run_abides (hsane : cli.Sane t) (hcalm : Calm last past) {line : String}
    (hdiscard : Discards t line → MayDiscard t last) :
    (cli.run t line).Abides (Proper t)
      (fun past' r => Left t last past' r.2 ∧ (r.1 = .leave → Leaves t line)) past := by
  unfold Cli.run
  dsimp only
  split_ifs with hempty
  · exact ⟨⟨hcalm,hsane⟩,nofun⟩
  · split
    · exact ⟨Mere.proper trivial hcalm,fun _ => ⟨⟨hcalm.cons rfl rfl,hsane⟩,nofun⟩⟩
    · next hquestion =>
      split
      · exact ⟨Mere.proper trivial hcalm,fun _ => ⟨⟨hcalm.cons rfl rfl,hsane⟩,nofun⟩⟩
      · next command modifiers hsplit =>
        have htyped : ∀ {verb rest}, Path.parse command = .ok (verb::rest) →
            Cli.typed t.regexError line = .command verb rest modifiers :=
          typed_eq (Bool.eq_false_of_not_eq_true hempty) hquestion hsplit
        refine (dispatch_abides hsane hcalm command
          (fun rest hparse => hdiscard ⟨rest,modifiers,htyped hparse⟩)).seq ?_
        rintro past' ⟨done,cli'⟩ ⟨hleft,hstays⟩
        unfold conclude
        cases done with
        | ok shown =>
          obtain ⟨output,outcome⟩ := shown
          refine (emit_abides hleft.calm output modifiers).seq (fun past'' _ hcalm => ⟨⟨hcalm,hleft.sane⟩,?_⟩)
          rintro rfl
          obtain h | ⟨verb,rest,hparse,hverb⟩ := hstays
          · cases h
          · exact ⟨verb,rest,modifiers,htyped hparse,hverb⟩
        | error e => exact ⟨Mere.proper trivial hleft.calm,fun _ => ⟨⟨hleft.calm.cons rfl rfl,hleft.sane⟩,nofun⟩⟩

end Commands
end Nightshade.Cli
