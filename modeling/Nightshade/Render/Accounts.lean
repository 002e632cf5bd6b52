import Mathlib
import Nightshade.Foundation.Updates
import Nightshade.Schema.Gate
import Nightshade.Schema.Plain
import Nightshade.Render.Login

/-! What the account commands do to a host. Each of them needs its account to be there; an apply is
good when none of them is issued without, and the host ends with the accounts as configured. -/
namespace Nightshade.Render.Login
open Foundation Schema

/-- What an account is kept with, where it is set. -/
structure Account where
  fullName : Option String
  password : Option String
  deriving Repr, DecidableEq

/-- A host by its accounts, with the artifacts that were last applied to it and the commands that
were issued without their account being there. -/
structure AccountHost where
  accounts : SortedMap String Account
  previous : Option Artifacts
  unmet : List (List String)

/-! ### The tools -/

/-- A line of chpasswd: a name, and a hash up to the end of the line. -/
def credential (input : String) : Option (String × String) :=
  (Value.splitOnce ':' (input.toList.takeWhile (· ≠ '\n'))).map (fun e => (String.ofList e.1,String.ofList e.2))

def retitle : Option String → Account → Account
  | none, account => account
  | some text, account => {account with fullName := some text}

def rehash (hash : String) (account : Account) : Account := {account with password := some hash}

/-- What a command with its standard input does to which account. -/
def command (argv : List String) (input : String) : Option (Update String Account) :=
  match argv with
  | ["usermod",name] => some (name,some ∘ retitle none)
  | ["usermod","--comment",text,name] => some (name,some ∘ retitle (some text))
  | ["chpasswd","-e"] => (credential input).map (fun e => (e.1,some ∘ rehash e.2))
  | ["userdel",name] => some (name,fun _ => none)
  | _ => none

/-- A command fails where its account is missing, and does what it does otherwise. -/
def issue (argv : List String) (input : String) (host : AccountHost) : Except String Unit × AccountHost :=
  match command argv input with
  | none => (.error "invalid command",host)
  | some (name,change) =>
    match host.accounts.get? name with
    | some account => (.ok (),{host with accounts := host.accounts.put name (change account)})
    | none => (.error ("user '" ++ name ++ "' does not exist"),{host with unmet := host.unmet ++ [argv]})

/-- A host on which the tools that keep the accounts are run. -/
def accountTools : Exec HostOp HostOp.Answer Unit AccountHost
  | .run argv, _, host => (some (issue argv "" host).1,(issue argv "" host).2)
  | .runWithSecret argv secret, _, host => (some (issue argv secret host).1,(issue argv secret host).2)
  | .load _, _, host => (some host.previous,host)
  | .read _, _, host => (some (.ok none),host)
  | .sync _, _, host => (some (.ok ()),host)
  | .write _ _, _, host => (some (.ok ()),host)
  | .save _ _, _, host => (some (.ok ()),host)

/-! ### Programs that carry out updates -/

/-- What came of updates: all of them, or an error and a command issued without its account. -/
def Carried (us : List (Update String Account)) (host : AccountHost) (r : Except ApplyError Unit)
    (host' : AccountHost) : Prop :=
  match updated us host.accounts with
  | some accounts => r = .ok () ∧ host' = {host with accounts := accounts}
  | none => (∃ e, r = .error e) ∧ host.unmet.length < host'.unmet.length

/-- The program carries the updates out on every host, one command after another. -/
def CarriesOut (p : HostProg (Except ApplyError Unit)) (us : List (Update String Account)) : Prop :=
  ∀ host, p.Ends accountTools (fun _ _ _ => True) (Carried us host) (fun _ => False) host

variable {argv : List String} {input : String} {u : Update String Account} {us : List (Update String Account)}

/-- A command that was issued, with its answer as a part of an apply. -/
theorem carried_issue (h : command argv input = some u) (host : AccountHost) :
    (orHost (Prog.done (issue argv input host).1)).Ends accountTools (fun _ _ _ => True) (Carried [u] host)
      (fun _ => False) (issue argv input host).2 := by
  obtain ⟨name,change⟩ := u
  unfold issue
  simp only [h]
  cases hget : host.accounts.get? name with
  | none => simp [orHost,Carried,updated_cons,hget]
  | some account => simp [orHost,Carried,updated_cons,hget]

theorem carriesOut_run (h : command argv "" = some u) : CarriesOut (orHost (Host.run argv)) [u] :=
  fun host _ _ => carried_issue h host

theorem carriesOut_runWithSecret (h : command argv input = some u) :
    CarriesOut (orHost (Host.runWithSecret argv input)) [u] :=
  fun host _ _ => carried_issue h host

/-- Steps that carry out one update each carry out all of them in turn. -/
theorem carriesOut_forEach {A : Type} {step : A → HostProg (Except ApplyError Unit)} {l : List A}
    (h : List.Forall₂ (fun a u => CarriesOut (step a) [u]) l us) : CarriesOut (forEach step l) us := by
  induction h with
  | nil => exact fun host => ⟨rfl,rfl⟩
  | @cons a u l us hstep _ ih =>
    intro host
    refine Prog.Ends.bind ((hstep host).mono (fun r mid hmid => ?_) (fun _ h => h))
    unfold Carried at hmid
    rw [updated_cons] at hmid
    cases hget : host.accounts.get? u.1 with
    | none =>
      rw [hget] at hmid
      obtain ⟨⟨e,rfl⟩,hunmet⟩ := hmid
      simp only [Prog.pure_eq,Prog.ends_done,Carried,updated_cons,hget]
      exact ⟨⟨e,rfl⟩,hunmet⟩
    | some account =>
      rw [hget] at hmid
      obtain ⟨rfl,rfl⟩ := hmid
      refine (ih _).mono (fun r host' hrest => ?_) (fun _ h => h)
      simpa only [Carried,updated_cons,hget,Option.bind_some] using hrest

/-! ### Configured users -/

/-- Where a configuration has a user. -/
def user (name : String) : Path := ["system","login","user",name]

/-- What a configuration says of an account. -/
def configured (config : ConfigTree) (name : String) : Account :=
  ⟨(config.get (user name ++ ["full-name"])).bind Node.value,
    (config.get (user name ++ ["authentication","encrypted-password"])).bind Node.value⟩

variable {config : ConfigTree} {name : String} {node : Node} {zones : List String}

theorem mem_users : (name,node) ∈ users config ↔ config.get (user name) = some node := by
  unfold users ConfigTree.get
  rw [show user name = ["system","login","user"] ++ [name] from rfl,Node.get_concat]
  cases hget : config.root.get ["system","login","user"] with
  | none => simp
  | some m =>
    have hordered := Node.ordered_get config.ordered hget
    obtain ⟨c,cs | vs⟩ := m
    · have hlookup := lookup_eq_some_iff_mem (Node.ordered_interior.mp hordered).1 (k := name) (v := node)
      simp [Node.children,hlookup]
    · simp [Node.children]

theorem users_sorted : KeySorted (users config) := by
  unfold users ConfigTree.get
  cases hget : config.root.get ["system","login","user"] with
  | none => exact keySorted_nil
  | some m =>
    have hordered := Node.ordered_get config.ordered hget
    obtain ⟨c,cs | vs⟩ := m
    · exact (Node.ordered_interior.mp hordered).1
    · exact keySorted_nil

theorem users_nodup : ((users config).map Prod.fst).Nodup :=
  List.pairwise_map.mpr (users_sorted.imp (fun hlt => hlt.ne))

theorem userActions_eq (h : config.get (user name) = some node) :
    userActions name node = .ensureAccount name (configured config name).fullName ::
      (configured config name).password.toList.map (.setPassword name) := by
  have hchild : ∀ (n : Node) (path : Path) (leaf : String), n.get (leaf::path) =
      (n.children.bind (fun cs => cs.lookup leaf)).bind (Node.get path) := by
    intro n path leaf
    obtain ⟨c,cs | vs⟩ := n
    · rfl
    · rfl
  unfold userActions configured ConfigTree.get
  rw [Node.get_append,Node.get_append,show config.root.get (user name) = some node from h]
  simp only [Option.bind_some,hchild]
  cases hauth : (node.children.bind fun cs => cs.lookup "authentication") <;> simp [Node.get]

/-- Where the schema has users and their passwords. -/
theorem user_places (zones : List String) : ∃ tag leaf,
    ["system","login","user"].foldlM Location.enter (.node (Shipped.schema zones).root) = some (.node tag) ∧
    tag.kind = .tag ⟨.userName,[],none⟩ ∧
    ["authentication","encrypted-password"].foldlM Location.enter (.inst tag) = some (.node leaf) ∧
    leaf.kind = .leaf ⟨.encryptedPassword,[],none⟩ := ⟨_,_,rfl,rfl,rfl,rfl⟩

section Clean
variable (hclean : (Shipped.schema zones).validateTree config = [])
include hclean

theorem userName_checked (h : config.get (user name) = some node) : Value.isUserName name = true := by
  obtain ⟨tag,leaf,htag,hkind,-⟩ := user_places zones
  obtain ⟨location,henter,-⟩ := Node.fits_of_get (validateTree_eq_nil.mp hclean) h
  rw [show user name = ["system","login","user"] ++ [name] from rfl,List.foldlM_append,htag] at henter
  have hlast : Location.enter (.node tag) name = some location := by simpa using henter
  simp only [Location.enter,hkind] at hlast
  cases hcheck : ValueSpec.check ⟨.userName,[],none⟩ name with
  | error e => simp [hcheck] at hlast
  | ok u =>
    obtain hmem | hok := ValueSpec.ok_type hcheck
    · cases hmem
    · exact ok_of_checkThat hok

theorem password_checked {hash : String} (h : (configured config name).password = some hash) :
    Value.isEncryptedPassword hash = true := by
  obtain ⟨tag,leaf,htag,hkind,hleaf,hspec⟩ := user_places zones
  obtain ⟨n,hget,hvalue⟩ := Option.bind_eq_some_iff.mp h
  obtain ⟨location,henter,hfits⟩ := Node.fits_of_get (validateTree_eq_nil.mp hclean) hget
  rw [show user name = ["system","login","user"] ++ [name] from rfl,List.append_assoc,List.foldlM_append,htag] at henter
  have hrest : ([name] ++ ["authentication","encrypted-password"]).foldlM Location.enter (.node tag) = some location :=
    henter
  rw [List.foldlM_append] at hrest
  obtain ⟨inst,hinst,hpath⟩ := Option.bind_eq_some_iff.mp hrest
  have hone : Location.enter (.node tag) name = some inst := by simpa using hinst
  simp only [Location.enter,hkind] at hone
  cases hcheck : ValueSpec.check ⟨.userName,[],none⟩ name with
  | error e => simp [hcheck] at hone
  | ok u =>
    rw [hcheck] at hone
    obtain rfl := Option.some.inj hone
    obtain rfl := Option.some.inj (hleaf.symm.trans hpath)
    obtain ⟨c,cs | vs⟩ := n
    · cases hvalue
    · have hplace := Node.fits_values.mp hfits
      unfold Location.Holds at hplace
      simp only [hspec] at hplace
      obtain ⟨v,rfl,hok⟩ := hplace
      obtain rfl : v = hash := by simpa [Node.value,Node.valueSet] using hvalue
      obtain hmem | hok := ValueSpec.ok_type hok
      · cases hmem
      · exact ok_of_checkThat hok

end Clean

theorem splitOnce_of {sep : Char} {before after : List Char} (h : sep ∉ before) :
    Value.splitOnce sep (before ++ sep::after) = some (before,after) := by
  have hall : ∀ c ∈ before, decide (c ≠ sep) = true := by
    intro c hc
    have hne : c ≠ sep := fun heq => h (heq ▸ hc)
    exact decide_eq_true hne
  unfold Value.splitOnce
  rw [List.dropWhile_append_of_pos hall,List.takeWhile_append_of_pos hall]
  simp

theorem credential_line {hash : String} (hname : Value.isUserName name = true)
    (hhash : Value.isEncryptedPassword hash = true) :
    credential (name ++ ":" ++ hash ++ "\n") = some (name,hash) := by
  have hclear : Text (fun c => c ≠ ':' && c ≠ '\n') name.toList := by
    refine Value.userName_letters (fun {c} hc => ?_) (by simp) hname
    have hcolon : c ≠ ':' := fun heq => absurd hc (by rw [heq]; decide)
    have hend : c ≠ '\n' := fun heq => absurd hc (by rw [heq]; decide)
    simp [hcolon,hend]
  have hline : '\n' ∉ hash.toList := by
    intro hend
    exact absurd (Value.tight_encryptedPassword hhash _ hend) (by decide)
  have hcolon : ':' ∉ name.toList := fun hmem => absurd (hclear _ hmem) (by decide)
  have hkept : ∀ c ∈ name.toList ++ ':'::hash.toList, decide (c ≠ '\n') = true := by
    intro c hc
    apply decide_eq_true
    rintro rfl
    obtain hmem | hmem := List.mem_append.mp hc
    · exact absurd (hclear _ hmem) (by decide)
    · obtain heq | hmem := List.mem_cons.mp hmem
      · exact absurd heq (by decide)
      · exact hline hmem
  have htext : (name ++ ":" ++ hash ++ "\n").toList = (name.toList ++ ':'::hash.toList) ++ ['\n'] := by
    simp
  unfold credential
  rw [htext,List.takeWhile_append_of_pos hkept]
  simp [splitOnce_of hcolon]

/-! ### The updates of an apply -/

/-- What an apply makes of an account: what is configured goes over what is there. -/
def settle (wanted : Account) (account : Account) : Account :=
  ⟨wanted.fullName.or account.fullName,wanted.password.or account.password⟩

theorem rehash_retitle {fullName : Option String} {hash : String} (account : Account) :
    rehash hash (retitle fullName account) = settle ⟨fullName,some hash⟩ account := by
  cases fullName <;> rfl

theorem retitle_eq {fullName : Option String} (account : Account) :
    retitle fullName account = settle ⟨fullName,none⟩ account := by
  cases fullName <;> rfl

/-- The updates of one user, a command each. -/
def userUpdates (name : String) (wanted : Account) : List (Update String Account) :=
  (name,some ∘ retitle wanted.fullName)::wanted.password.toList.map (fun hash => (name,some ∘ rehash hash))

theorem updated_userUpdates (name : String) (wanted : Account) (accounts : SortedMap String Account) :
    updated (userUpdates name wanted) accounts = updated [(name,some ∘ settle wanted)] accounts := by
  obtain ⟨fullName,password⟩ := wanted
  cases password with
  | none =>
    have hone : (some ∘ retitle fullName : Account → Option Account) = some ∘ settle ⟨fullName,none⟩ := by
      funext account
      exact congrArg some (retitle_eq account)
    simp [userUpdates,hone]
  | some hash =>
    have hboth : (some ∘ rehash hash) ∘ retitle fullName = some ∘ settle ⟨fullName,some hash⟩ := by
      funext account
      exact congrArg some (rehash_retitle account)
    simp only [userUpdates,Option.toList_some,List.map_cons,List.map_nil]
    rw [updated_merge,hboth]

theorem command_ensure {fullName : Option String} :
    command (Action.ensureAccount name fullName).argv "" = some (name,some ∘ retitle fullName) := by
  cases fullName <;> rfl

theorem command_remove : command (Action.removeAccount name).argv "" = some (name,fun _ => none) := rfl

/-- An action that is one command, and the update that the command makes. -/
def Issues (action : Action) (u : Update String Account) : Prop :=
  ∃ input, command action.argv input = some u ∧
    (applyAction action = orHost (Host.runWithSecret action.argv input) ∨
      input = "" ∧ applyAction action = orHost (Host.run action.argv))

theorem carriesOut_action {action : Action} (h : Issues action u) : CarriesOut (applyAction action) [u] := by
  obtain ⟨input,hcommand,hstep | ⟨rfl,hstep⟩⟩ := h
  · rw [hstep]
    exact carriesOut_runWithSecret hcommand
  · rw [hstep]
    exact carriesOut_run hcommand

/-- The actions of a user are commands that make the updates of that user. -/
theorem userActions_issue (hclean : (Shipped.schema zones).validateTree config = [])
    (h : config.get (user name) = some node) :
    List.Forall₂ Issues (userActions name node) (userUpdates name (configured config name)) := by
  rw [userActions_eq h]
  refine .cons ⟨"",command_ensure,.inr ⟨rfl,rfl⟩⟩ ?_
  cases hpassword : (configured config name).password with
  | none => exact .nil
  | some hash =>
    refine .cons ⟨name ++ ":" ++ hash ++ "\n",?_,.inl rfl⟩ .nil
    have hline := credential_line (userName_checked hclean h) (password_checked hclean hpassword)
    simp [Action.argv,command,hline]

theorem actions_issue {artifacts : Artifacts} (hclean : (Shipped.schema zones).validateTree config = [])
    (hrender : render config = .ok artifacts) :
    List.Forall₂ Issues artifacts.actions
      ((users config).flatMap (fun e => userUpdates e.1 (configured config e.1))) := by
  cases hrender
  have hsame : List.Forall₂ (fun e e' => e = e' ∧ e ∈ users config) (users config) (users config) :=
    List.forall₂_same.mpr (fun e he => ⟨rfl,he⟩)
  refine List.rel_flatMap hsame (fun e e' he => ?_)
  obtain ⟨rfl,hmem⟩ := he
  exact userActions_issue hclean (mem_users.mp hmem)

/-- The updates of all users are one update for each. -/
theorem updated_users (config : ConfigTree) (accounts : SortedMap String Account) :
    updated ((users config).flatMap (fun e => userUpdates e.1 (configured config e.1))) accounts =
      updated ((users config).map (fun e => (e.1,some ∘ settle (configured config e.1)))) accounts :=
  updated_flatMap (fun e _ m => updated_userUpdates e.1 _ m)

theorem mem_named {artifacts : Artifacts} :
    name ∈ named artifacts ↔ ∃ fullName, Action.ensureAccount name fullName ∈ artifacts.actions := by
  unfold named
  rw [mem_insertElems,List.mem_filterMap]
  simp only [List.not_mem_nil,or_false]
  constructor
  · rintro ⟨action,hmem,hname⟩
    cases action with
    | ensureAccount other fullName =>
      obtain rfl := Option.some.inj hname
      exact ⟨fullName,hmem⟩
    | _ => cases hname
  · rintro ⟨fullName,hmem⟩
    exact ⟨_,hmem,rfl⟩

theorem named_nodup (artifacts : Artifacts) : (named artifacts).Nodup :=
  (sorted_insertElems List.Pairwise.nil).imp (fun hlt => ne_of_lt hlt)

/-- The accounts that are named are the users of the configuration. -/
theorem mem_named_render {artifacts : Artifacts} (hrender : render config = .ok artifacts) :
    name ∈ named artifacts ↔ (config.get (user name)).isSome := by
  cases hrender
  rw [mem_named,Option.isSome_iff_exists]
  simp only [List.mem_flatMap]
  constructor
  · rintro ⟨fullName,⟨other,node⟩,hmem,haction⟩
    rw [userActions,List.mem_cons] at haction
    obtain heq | hpassword := haction
    · cases heq
      exact ⟨node,mem_users.mp hmem⟩
    · obtain ⟨hash,-,hset⟩ := List.mem_map.mp hpassword
      cases hset
  · rintro ⟨node,hget⟩
    exact ⟨_,(name,node),mem_users.mpr hget,List.mem_cons_self⟩

/-- The accounts that were wanted by what was last applied and are not any more. -/
def surplus (previous : Option Artifacts) (next : Artifacts) : List String :=
  ((previous.map named).getD []).filter (fun name => name ∉ named next)

/-- The updates of an apply: one for each user, and one for each surplus account. -/
def applyUpdates (config : ConfigTree) (gone : List String) : List (Update String Account) :=
  (users config).map (fun e => (e.1,some ∘ settle (configured config e.1))) ++ gone.map (fun name => (name,fun _ => none))

/-- Running the renderer carries out the updates, the users first. -/
theorem apply_carried {artifacts : Artifacts} (hclean : (Shipped.schema zones).validateTree config = [])
    (hrender : render config = .ok artifacts) (host : AccountHost) :
    (apply artifacts).Ends accountTools (fun _ _ _ => True)
      (Carried (applyUpdates config (surplus host.previous artifacts)) host) (fun _ => False) host := by
  have hcommands : List.Forall₂ (fun a u => CarriesOut (applyAction a) [u]) artifacts.actions
      ((users config).flatMap (fun e => userUpdates e.1 (configured config e.1))) :=
    (actions_issue hclean hrender).imp (fun _ _ => carriesOut_action)
  have hgone : List.Forall₂ (fun a u => CarriesOut (orHost (Host.run (Action.argv a))) [u])
      (removals host.previous artifacts) ((surplus host.previous artifacts).map (fun name => (name,fun _ => none))) := by
    unfold removals
    rw [List.forall₂_map_left_iff,List.forall₂_map_right_iff]
    exact List.forall₂_same.mpr (fun name _ => carriesOut_run command_remove)
  refine Prog.Ends.bind ((carriesOut_forEach hcommands host).mono (fun r mid hmid => ?_) (fun _ h => h))
  unfold Carried at hmid
  rw [updated_users] at hmid
  cases hmiddle : updated ((users config).map (fun e => (e.1,some ∘ settle (configured config e.1)))) host.accounts with
  | none =>
    rw [hmiddle] at hmid
    obtain ⟨⟨e,rfl⟩,hunmet⟩ := hmid
    simp only [Prog.pure_eq,Prog.ends_done,Carried,applyUpdates,updated_append,hmiddle]
    exact ⟨⟨e,rfl⟩,hunmet⟩
  | some accounts =>
    rw [hmiddle] at hmid
    obtain ⟨rfl,rfl⟩ := hmid
    intro f _
    refine (carriesOut_forEach hgone _).mono (fun r host' hrest => ?_) (fun _ h => h)
    simpa only [Carried,applyUpdates,updated_append,hmiddle,Option.bind_some] using hrest

/-! ### Converging -/

/-- The host after the apply of some artifacts. -/
def afterApply (artifacts : Artifacts) (host : AccountHost) : AccountHost :=
  ((apply artifacts).run accountTools (fun _ _ => ()) 0 host).2

/-- A user of what was last applied. -/
def Applied (previous : Option Artifacts) (name : String) : Prop :=
  ∃ artifacts ∈ previous, ∃ fullName, Action.ensureAccount name fullName ∈ artifacts.actions

/-- No command is issued without its account, and the host ends with the accounts as configured: the
users exactly so, the users of before gone, and all others as they were. -/
structure Converges (config : ConfigTree) (artifacts : Artifacts) (host : AccountHost) : Prop where
  met : (afterApply artifacts host).unmet = host.unmet
  settled : ∀ name, (config.get (user name)).isSome →
    (afterApply artifacts host).accounts.get? name = some (configured config name)
  gone : ∀ name, Applied host.previous name → config.get (user name) = none →
    (afterApply artifacts host).accounts.get? name = none
  untouched : ∀ name, ¬Applied host.previous name → config.get (user name) = none →
    (afterApply artifacts host).accounts.get? name = host.accounts.get? name

/-- Every user is there already, with nothing set that is not configured, and so is every account
that has to go. -/
structure Prepared (config : ConfigTree) (host : AccountHost) : Prop where
  present : ∀ name, (config.get (user name)).isSome → ∃ account, host.accounts.get? name = some account ∧
    ((configured config name).fullName = none → account.fullName = none) ∧
    ((configured config name).password = none → account.password = none)
  removable : ∀ name, Applied host.previous name → config.get (user name) = none →
    (host.accounts.get? name).isSome

section Converging
variable {artifacts : Artifacts} {host : AccountHost}

theorem mem_surplus (hrender : render config = .ok artifacts) {previous : Option Artifacts} :
    name ∈ surplus previous artifacts ↔ Applied previous name ∧ config.get (user name) = none := by
  unfold surplus Applied
  rw [List.mem_filter,decide_eq_true_eq,mem_named_render hrender,Option.not_isSome_iff_eq_none]
  cases previous with
  | none => simp
  | some before => simp [mem_named]

theorem applyUpdates_nodup (hrender : render config = .ok artifacts) (previous : Option Artifacts) :
    ((applyUpdates config (surplus previous artifacts)).map Prod.fst).Nodup := by
  have husers : ((users config).map (fun e => (e.1,some ∘ settle (configured config e.1)))).map Prod.fst =
      (users config).map Prod.fst := by
    rw [List.map_map]
    rfl
  have hgone : ((surplus previous artifacts).map (fun name => ((name,fun _ => none) : Update String Account))).map
      Prod.fst = surplus previous artifacts := by
    rw [List.map_map]
    exact List.map_id _
  have hsurplus : (surplus previous artifacts).Nodup := by
    unfold surplus
    cases previous with
    | none => exact List.nodup_nil
    | some before => exact (named_nodup before).filter _
  rw [applyUpdates,List.map_append,husers,hgone]
  refine List.nodup_append.mpr ⟨users_nodup,hsurplus,?_⟩
  rintro name hmem _ hsur rfl
  obtain ⟨⟨other,node⟩,he,rfl⟩ := List.mem_map.mp hmem
  have hnone := ((mem_surplus hrender).mp hsur).2
  rw [mem_users.mp he] at hnone
  cases hnone

theorem afterApply_carried (hclean : (Shipped.schema zones).validateTree config = [])
    (hrender : render config = .ok artifacts) (host : AccountHost) :
    ∃ r, Carried (applyUpdates config (surplus host.previous artifacts)) host r (afterApply artifacts host) := by
  have hrun : Prog.Outcome (Carried (applyUpdates config (surplus host.previous artifacts)) host) (fun _ => False)
      ((apply artifacts).run accountTools (fun _ _ => ()) 0 host) := (apply_carried hclean hrender host).run_all
  unfold afterApply
  cases hend : (apply artifacts).run accountTools (fun _ _ => ()) 0 host with
  | mk answer after =>
    rw [hend] at hrun
    cases answer with
    | none => exact hrun.elim
    | some r => exact ⟨r,hrun⟩

/-- What is configured is all there is exactly when nothing else was set. -/
theorem settle_eq {wanted account : Account} :
    settle wanted account = wanted ↔
      (wanted.fullName = none → account.fullName = none) ∧ (wanted.password = none → account.password = none) := by
  obtain ⟨fullName,password⟩ := wanted
  cases fullName <;> cases password <;> simp [settle]

theorem mem_applyUpdates (hrender : render config = .ok artifacts) {previous : Option Artifacts}
    {u : Update String Account} : u ∈ applyUpdates config (surplus previous artifacts) ↔
      (∃ name, (config.get (user name)).isSome ∧ u = (name,some ∘ settle (configured config name))) ∨
      ∃ name, (Applied previous name ∧ config.get (user name) = none) ∧ u = (name,fun _ => none) := by
  simp only [applyUpdates,List.mem_append,List.mem_map,mem_surplus hrender,Option.isSome_iff_exists]
  constructor
  · rintro (⟨⟨name,node⟩,he,rfl⟩ | ⟨name,hsur,rfl⟩)
    · exact .inl ⟨name,⟨node,mem_users.mp he⟩,rfl⟩
    · exact .inr ⟨name,hsur,rfl⟩
  · rintro (⟨name,⟨node,hget⟩,rfl⟩ | ⟨name,hsur,rfl⟩)
    · exact .inl ⟨(name,node),mem_users.mpr hget,rfl⟩
    · exact .inr ⟨name,hsur,rfl⟩

/-- What an apply leaves: its users settled, those it wants no more gone, and all others as they were. -/
theorem get?_applied (hrender : render config = .ok artifacts) {previous : Option Artifacts}
    {book book' : SortedMap String Account}
    (hdone : updated (applyUpdates config (surplus previous artifacts)) book = some book') :
    (∀ name, (config.get (user name)).isSome → ∃ account, book.get? name = some account ∧
      book'.get? name = some (settle (configured config name) account)) ∧
    (∀ name, Applied previous name → config.get (user name) = none →
      (book.get? name).isSome ∧ book'.get? name = none) ∧
    ∀ name, ¬Applied previous name → config.get (user name) = none → book'.get? name = book.get? name := by
  have hnodup := applyUpdates_nodup hrender previous
  have hthere := (isSome_updated hnodup).mp (by rw [hdone]; rfl : (updated _ book).isSome)
  obtain ⟨hchanged,hkept⟩ := get?_updated hnodup hdone
  refine ⟨fun name hget => ?_,fun name happlied hnone => ?_,fun name happlied hnone => ?_⟩
  · have hmem : (name,some ∘ settle (configured config name)) ∈ applyUpdates config (surplus previous artifacts) :=
      (mem_applyUpdates hrender).mpr (.inl ⟨name,hget,rfl⟩)
    obtain ⟨account,haccount⟩ := Option.isSome_iff_exists.mp (hthere _ hmem)
    refine ⟨account,haccount,?_⟩
    rw [hchanged _ hmem,haccount]
    rfl
  · have hmem : (name,fun _ => none) ∈ applyUpdates config (surplus previous artifacts) :=
      (mem_applyUpdates hrender).mpr (.inr ⟨name,⟨happlied,hnone⟩,rfl⟩)
    refine ⟨hthere _ hmem,?_⟩
    rw [hchanged _ hmem]
    cases book.get? name <;> rfl
  · refine hkept name (fun u hu heq => ?_)
    obtain ⟨other,hget,rfl⟩ | ⟨other,⟨hother,-⟩,rfl⟩ := (mem_applyUpdates hrender).mp hu
    · rw [show other = name from heq,hnone] at hget
      cases hget
    · exact happlied (heq ▸ hother)

/-- An apply makes the accounts what is configured exactly on a host that is prepared for it. -/
theorem converges_iff (hclean : (Shipped.schema zones).validateTree config = [])
    (hrender : render config = .ok artifacts) (host : AccountHost) :
    Converges config artifacts host ↔ Prepared config host := by
  obtain ⟨r,hcarried⟩ := afterApply_carried hclean hrender host
  have hnodup := applyUpdates_nodup hrender host.previous
  unfold Carried at hcarried
  cases hdone : updated (applyUpdates config (surplus host.previous artifacts)) host.accounts with
  | none =>
    rw [hdone] at hcarried
    have hunmet := hcarried.2
    have hmissing : ¬∀ u ∈ applyUpdates config (surplus host.previous artifacts), (host.accounts.get? u.1).isSome := by
      rw [← isSome_updated hnodup,hdone]
      simp
    refine ⟨fun h => absurd (congrArg List.length h.met) (by omega),fun h => absurd ?_ hmissing⟩
    intro u hu
    obtain ⟨name,hget,rfl⟩ | ⟨name,⟨happlied,hnone⟩,rfl⟩ := (mem_applyUpdates hrender).mp hu
    · obtain ⟨account,haccount,-⟩ := h.present name hget
      simp [haccount]
    · exact h.removable name happlied hnone
  | some accounts =>
    rw [hdone] at hcarried
    have hafter := hcarried.2
    obtain ⟨hsettled,hgone,hkept⟩ := get?_applied hrender hdone
    constructor
    · intro h
      refine ⟨fun name hget => ?_,fun name happlied hnone => (hgone name happlied hnone).1⟩
      obtain ⟨account,haccount,hend⟩ := hsettled name hget
      have hconfigured := h.settled name hget
      rw [hafter,hend] at hconfigured
      exact ⟨account,haccount,settle_eq.mp (Option.some.inj hconfigured)⟩
    · intro h
      refine ⟨by rw [hafter],fun name hget => ?_,fun name happlied hnone => ?_,fun name happlied hnone => ?_⟩
      · obtain ⟨account,haccount,hclear⟩ := h.present name hget
        obtain ⟨there,hthere,hend⟩ := hsettled name hget
        obtain rfl := Option.some.inj (haccount.symm.trans hthere)
        rw [hafter,hend,settle_eq.mpr hclear]
      · rw [hafter]
        exact (hgone name happlied hnone).2
      · rw [hafter]
        exact hkept name happlied hnone

end Converging

/-- One administrator, with a password. -/
def oneUser : ConfigTree := (ConfigTree.new.set (user "alice" ++ ["authentication","encrypted-password"]) "$6$salt$hash").2

theorem oneUser_converges_iff : ∃ artifacts, render oneUser = .ok artifacts ∧
    (Converges oneUser artifacts ⟨SortedMap.empty,none,[]⟩ ↔ Prepared oneUser ⟨SortedMap.empty,none,[]⟩) := by
  have hclean : (Shipped.schema []).validateTree oneUser = [] := by decide +kernel
  exact ⟨_,rfl,converges_iff hclean rfl _⟩

/-- An account that is new to the host is modified and not added, which fails. -/
theorem newAccount_unmet : ∃ artifacts, (Shipped.schema []).validateTree oneUser = [] ∧
    (Shipped.schema []).checkConstraints oneUser = [] ∧ render oneUser = .ok artifacts ∧ check artifacts = .ok () ∧
    (afterApply artifacts ⟨SortedMap.empty,none,[]⟩).unmet = [["usermod","alice"]] ∧
    ¬Converges oneUser artifacts ⟨SortedMap.empty,none,[]⟩ := by
  refine ⟨_,by decide +kernel,by decide +kernel,rfl,by decide +kernel,by decide +kernel,fun h => ?_⟩
  exact absurd h.met (by decide +kernel)

end Nightshade.Render.Login
