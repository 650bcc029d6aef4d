import StandaloneDHCP.Api.LeaseApi
import StandaloneDHCP.Overrides.ApplyOverrides
import StandaloneDHCP.Overrides.OptionValues
import StandaloneDHCP.Wire.MacText

/-! The override endpoints (`api.go`). The two `POST` handlers check an option list before they
save it, and `ConvertOptionToDHCP` checks it again when a reply is built. The first check looks
at the code and for an empty value only, so a list can be stored of which nothing is ever sent.
A request body is the outcome of decoding its JSON, and the error of a database call, if any, is
part of the request's environment. -/
namespace StandaloneDHCP
set_option autoImplicit false

/-- The text in lower case, as `strings.ToLower` has it on ASCII. -/
def toLower (s : String) : String := String.ofList (s.toList.map Char.toLower)

/-- The bodies that `POST` and `DELETE` answer with, next to `"status": "success"`. -/
inductive OverrideBody
  | saved (message target : String) (options : List DHCPOption)
  | removed (message target : String)
deriving DecidableEq

/-- What a call to the database meets: its error, or the clock and the id of a new row. -/
structure StoreEnv where
  dbError : Option String
  now : Int
  newId : Int

/-! ## The handlers -/

/-- The loop that validates the options; the text of the first error. -/
def validateOptions : List DHCPOption → Option String
  | [] => none
  | opt :: rest =>
    if opt.optionCode < 0 ∨ opt.optionCode > 255 then
      some ("Invalid option code: " ++ toString opt.optionCode)
    else if opt.optionValue = "" then
      some ("Empty value for option " ++ toString opt.optionCode)
    else validateOptions rest

/-- The part of the `POST` handlers before `SaveOptionOverride`: the options that reach it. -/
def acceptedOptions (body : Except String (List DHCPOption)) :
    Except String (List DHCPOption) :=
  match body with
  | .error err => .error ("Invalid JSON: " ++ err)
  | .ok options =>
    match validateOptions options with
    | some message => .error message
    | none => .ok options

namespace OverrideState
variable (s : OverrideState)

def postOptions (type : OverrideType) (label target : String) (env : StoreEnv)
    (body : Except String (List DHCPOption)) : OverrideState × ApiReply OverrideBody :=
  match acceptedOptions body with
  | .error message => (s, .error message 400)
  | .ok options =>
    match env.dbError with
    | some err => (s, .error ("Failed to save option override: " ++ err) 500)
    | none =>
      (s.saveOptionOverride type target options env.now env.newId,
        .ok (.saved ("Option overrides saved for " ++ label ++ " " ++ target) target options))

def handleOverrideNetworkOptions (network : String) :=
  s.postOptions .network "network" network

def handleOverrideOptions (mac : String) := s.postOptions .mac "MAC" (toLower mac)

def removeOptions (type : OverrideType) (label target : String) (dbError : Option String) :
    OverrideState × ApiReply OverrideBody :=
  match dbError with
  | some err => (s, .error ("Failed to delete option override: " ++ err) 500)
  | none =>
    match s.deleteOptionOverride type target with
    | (s, false) =>
      (s, .error ("No option overrides found for " ++ label ++ " " ++ target) 404)
    | (s, true) =>
      (s, .ok (.removed ("Option overrides removed for " ++ label ++ " " ++ target) target))

def handleRemoveNetworkOptions (network : String) :=
  s.removeOptions .network "network" network

def handleRemoveOptions (mac : String) := s.removeOptions .mac "MAC" (toLower mac)

/-- The part of `handleGetOptionOverride` after the type is known. -/
def getOverride (type : OverrideType) (target : String) (dbError : Option String) :
    ApiReply OptionOverride :=
  match dbError with
  | some err => .error ("Failed to get option override: " ++ err) 500
  | none =>
    match OverrideTable.getOptionOverride s.db type target with
    | none => .error ("No option override found for " ++ type.text ++ " " ++ target) 404
    | some override => .ok override

/-- It reads the database and not the cache. -/
def handleGetOptionOverride (overrideType target : String) (dbError : Option String) :
    ApiReply OptionOverride :=
  match overrideType with
  | "network" => s.getOverride .network target dbError
  | "mac" => s.getOverride .mac (toLower target) dbError
  | _ => .error "Invalid type. Must be 'network' or 'mac'" 400

/-! ## What a request changes -/

variable {s} {type : OverrideType} {label target : String}

theorem postOptions_failed {env : StoreEnv} {body : Except String (List DHCPOption)}
    (hfailed : (s.postOptions type label target env body).2.status ≠ 200) :
    (s.postOptions type label target env body).1 = s := by
  unfold postOptions at hfailed ⊢
  split
  · rfl
  · next haccepted =>
    split
    · rfl
    · next hdb =>
      rw [haccepted] at hfailed
      simp [hdb, ApiReply.ok] at hfailed

theorem removeOptions_failed {dbError : Option String}
    (hfailed : (s.removeOptions type label target dbError).2.status ≠ 200) :
    (s.removeOptions type label target dbError).1 = s := by
  unfold removeOptions at hfailed ⊢
  cases dbError with
  | some err => rfl
  | none =>
    unfold deleteOptionOverride at hfailed ⊢
    rcases hrows : OverrideTable.deleteOptionOverride s.db type target with ⟨db, _ | n⟩
    · have hdb : (OverrideTable.deleteOptionOverride s.db type target).1 = s.db :=
        OverrideTable.delete_of_no_rows (by rw [hrows])
      rw [hrows] at hdb
      subst hdb
      rfl
    · simp [hrows, ApiReply.ok] at hfailed

end OverrideState

/-! ## What is stored and what is sent -/

/-- Every entry converts, and none is skipped when the list is applied. -/
def AllConvert (options : List DHCPOption) : Prop :=
  (∀ option ∈ options, ∃ entry, convertOptionToDHCP option = .ok entry) ∧
    (converted options).length = options.length

theorem exists_convertOptionToDHCP (option : DHCPOption) :
    (∃ entry, convertOptionToDHCP option = .ok entry) ↔
      SuitsType option.optionType option.optionValue.toList := by
  rw [← converts_convertValue, Converts, convertOptionToDHCP]
  cases convertValue option.optionType option.optionValue <;> simp

theorem length_converted (options : List DHCPOption)
    (hall : ∀ option ∈ options, ∃ entry, convertOptionToDHCP option = .ok entry) :
    (converted options).length = options.length := by
  induction options with
  | nil => rfl
  | cons option options ih =>
    obtain ⟨⟨entry, hentry⟩, hrest⟩ := List.forall_mem_cons.mp hall
    have hcons : converted (option :: options) = entry :: converted options := by
      simp [converted, hentry, Except.toOption]
    rw [hcons, List.length_cons, ih hrest, List.length_cons]

/-- What the handlers check of an entry. -/
def DHCPOption.Checked (option : DHCPOption) : Prop :=
  0 ≤ option.optionCode ∧ option.optionCode ≤ 255 ∧ option.optionValue ≠ ""

theorem validateOptions_eq_none (options : List DHCPOption) :
    validateOptions options = none ↔ ∀ option ∈ options, option.Checked := by
  induction options with
  | nil => simp [validateOptions]
  | cons option options ih =>
    rw [List.forall_mem_cons, ← ih, validateOptions, DHCPOption.Checked]
    split
    · next hcode =>
      simp only [reduceCtorEq, false_iff]
      omega
    · next hcode =>
      have hrange : 0 ≤ option.optionCode ∧ option.optionCode ≤ 255 := by omega
      split
      · next hempty => simp [hempty]
      · next hvalue => simp [hrange, hvalue]

theorem acceptedOptions_eq_ok {body : Except String (List DHCPOption)}
    {options : List DHCPOption} :
    acceptedOptions body = .ok options ↔
      body = .ok options ∧ ∀ option ∈ options, option.Checked := by
  cases body with
  | error err => simp [acceptedOptions]
  | ok posted =>
    rw [Except.ok.injEq, acceptedOptions]
    cases hmessage : validateOptions posted with
    | some message =>
      simp only [reduceCtorEq, false_iff]
      rintro ⟨rfl, hchecked⟩
      rw [(validateOptions_eq_none posted).mpr hchecked] at hmessage
      cases hmessage
    | none =>
      rw [Except.ok.injEq]
      exact ⟨fun h => ⟨h, h ▸ (validateOptions_eq_none posted).mp hmessage⟩, And.left⟩

/-- What a request stores is sent in full exactly when each value of a list that passes the
check suits its type. -/
theorem accepted_options_convert_iff (body : Except String (List DHCPOption)) :
    (∀ options, acceptedOptions body = .ok options → AllConvert options) ↔
      ∀ options, body = .ok options → (∀ option ∈ options, option.Checked) →
        ∀ option ∈ options, SuitsType option.optionType option.optionValue.toList := by
  constructor
  · intro hall options hbody hchecked option hoption
    have hconvert := hall options (acceptedOptions_eq_ok.mpr ⟨hbody, hchecked⟩)
    exact (exists_convertOptionToDHCP option).mp (hconvert.1 option hoption)
  · intro hsuits options haccepted
    obtain ⟨hbody, hchecked⟩ := acceptedOptions_eq_ok.mp haccepted
    have hall : ∀ option ∈ options, ∃ entry, convertOptionToDHCP option = .ok entry :=
      fun option hoption =>
        (exists_convertOptionToDHCP option).mpr (hsuits options hbody hchecked option hoption)
    exact ⟨hall, length_converted options hall⟩

/-- A host name as the value of an address: stored, and never sent. -/
theorem accepted_host_name_not_sent : ¬ ∀ body options,
    acceptedOptions body = .ok options → AllConvert options := by
  intro hall
  have haccepted : acceptedOptions (.ok [⟨3, "gateway", "ip"⟩]) = .ok [⟨3, "gateway", "ip"⟩] := by
    decide
  have hnothing : converted [⟨3, "gateway", "ip"⟩] = [] := by decide
  have hlength := (hall _ _ haccepted).2
  rw [hnothing] at hlength
  cases hlength

end StandaloneDHCP
