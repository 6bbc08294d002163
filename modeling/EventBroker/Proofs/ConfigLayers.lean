import EventBroker.Config.Load
import EventBroker.Proofs.LossyText
import Mathlib.Data.List.Induction

/-! # The layers of the configuration

A setting is what the file says, else what a variable says, else the default, with rules of its own
for texts and numbers that make no sense (`Config.Layered`). Reading the layers fails just when
something in them is at fault, and reports what comes first (`ConfigError.IsFirst`): see
`Config.layering`.
-/
set_option autoImplicit false

namespace EventBroker

/-! ## Numbers in texts -/

namespace Text

theorem digitValue?_ten (c : Char) :
    digitValue? 10 c = if c.isDigit = true then some (c.toNat - 48) else none := by
  have hdigit : c.isDigit = true ↔ 48 ≤ c.toNat ∧ c.toNat ≤ 57 := Char.isDigit_iff_toNat
  by_cases h : 48 ≤ c.toNat ∧ c.toNat ≤ 57
  · rw [if_pos (hdigit.mpr h)]
    simp only [digitValue?, Hex.value?, dif_pos h]
    exact if_pos (by omega)
  · rw [if_neg (mt hdigit.mp h)]
    simp only [digitValue?, Hex.value?, dif_neg h]
    -- A letter stands for ten or more.
    split
    · next d hd =>
      split at hd
      · cases hd
        exact if_neg (by simp only; omega)
      split at hd
      · cases hd
        exact if_neg (by simp only; omega)
      · cases hd
    · rfl

theorem readDigits_ten (cs : List Char) : readDigits 10 cs =
    if cs.all Char.isDigit = true then some (Nat.ofDigitChars 10 cs 0) else none := by
  induction cs using List.reverseRecOn with
  | nil => rfl
  | append_singleton cs c ih =>
    have hread : readDigits 10 (cs ++ [c]) = (readDigits 10 cs).bind fun n =>
        (digitValue? 10 c).bind fun d => some (n * 10 + d) := by
      rw [readDigits, List.foldl_append]
      rfl
    have hall : (cs ++ [c]).all Char.isDigit = true ↔
        cs.all Char.isDigit = true ∧ c.isDigit = true := by
      rw [List.all_append, Bool.and_eq_true, List.all_cons, List.all_nil, Bool.and_true]
    rw [hread, ih, digitValue?_ten]
    by_cases hcs : cs.all Char.isDigit = true
    · by_cases hc : c.isDigit = true
      · rw [if_pos hcs, if_pos hc, if_pos (hall.mpr ⟨hcs, hc⟩), Nat.ofDigitChars_append,
          Nat.ofDigitChars_cons, Nat.ofDigitChars_nil, Nat.mul_comm]
        rfl
      · rw [if_pos hcs, if_neg hc, if_neg fun h => hc (hall.mp h).2]
        rfl
    · rw [if_neg hcs, if_neg fun h => hcs (hall.mp h).1]
      rfl

/-- A text writes a number of at most `bound`: in decimal digits, with an optional `+` in front. -/
def Writes (bound : Nat) (t : String) (n : Nat) : Prop :=
  ∃ digits : List Char, (t.toList = digits ∨ t.toList = '+' :: digits) ∧ digits ≠ [] ∧
    (∀ c ∈ digits, c.isDigit = true) ∧ Nat.ofDigitChars 10 digits 0 = n ∧ n ≤ bound

theorem readUnsigned_plain {radix bound : Nat} {cs : List Char} (h : cs.head? ≠ some '+') :
    readUnsigned radix bound cs =
      if cs.isEmpty then none else (readDigits radix cs).filter (· ≤ bound) := by
  unfold readUnsigned
  split
  · exact absurd rfl h
  · rfl

theorem readUnsigned_eq_some_iff {bound n : Nat} {t : String} :
    readUnsigned 10 bound t.toList = some n ↔ Writes bound t n := by
  have hdigits (digits : List Char) :
      (if digits.isEmpty then none else (readDigits 10 digits).filter (· ≤ bound)) = some n ↔
        digits ≠ [] ∧ (∀ c ∈ digits, c.isDigit = true) ∧ Nat.ofDigitChars 10 digits 0 = n ∧
          n ≤ bound := by
    rw [Option.ite_none_left_eq_some, List.isEmpty_iff, Option.filter_eq_some_iff, readDigits_ten,
      Option.ite_none_right_eq_some, Option.some.injEq, decide_eq_true_eq, and_assoc,
      List.all_eq_true]
  unfold Writes
  generalize t.toList = cs
  by_cases hplus : cs.head? = some '+'
  · obtain ⟨rest, rfl⟩ := List.head?_eq_some_iff.mp hplus
    have hread : readUnsigned 10 bound ('+' :: rest) =
        if rest.isEmpty then none else (readDigits 10 rest).filter (· ≤ bound) := rfl
    rw [hread, hdigits]
    constructor
    · exact fun h => ⟨rest, .inr rfl, h⟩
    · rintro ⟨digits, rfl | h, hne, hdigit, hn⟩
      · exact absurd (hdigit '+' List.mem_cons_self) (by decide)
      · cases h
        exact ⟨hne, hdigit, hn⟩
  · rw [readUnsigned_plain hplus, hdigits]
    constructor
    · exact fun h => ⟨cs, .inl rfl, h⟩
    · rintro ⟨digits, rfl | rfl, h⟩
      · exact h
      · exact absurd rfl hplus

end Text

/-! ## Variables -/

namespace Environment

variable {env : Environment} {name t t' : String} {n : Nat}

/-- A variable is set to a text. -/
def Says (env : Environment) (name text : String) : Prop := env name = some (Utf8.ofString text)

/-- A variable is set to a text that writes a positive number. -/
def Gives (env : Environment) (name : String) (n : Nat) : Prop :=
  0 < n ∧ ∃ t, env.Says name t ∧ Text.Writes word64Max t n

theorem text?_eq_some_iff : env.text? name = some t ↔ env.Says name t := by
  simp only [text?, Option.bind_eq_some_iff, Utf8.toString?_eq_some_iff, Says, exists_eq_right]

theorem positive?_eq_some_iff : env.positive? name = some n ↔ env.Gives name n := by
  simp only [positive?, Option.filter_eq_some_iff, Option.bind_eq_some_iff, text?_eq_some_iff,
    Text.readUnsigned_eq_some_iff, decide_eq_true_eq, Gives, and_comm]

theorem text?_eq_none_iff : env.text? name = none ↔ ∀ t, ¬ env.Says name t := by
  simp only [← text?_eq_some_iff, Option.eq_none_iff_forall_ne_some, ne_eq]

theorem positive?_eq_none_iff : env.positive? name = none ↔ ∀ n, ¬ env.Gives name n := by
  simp only [← positive?_eq_some_iff, Option.eq_none_iff_forall_ne_some, ne_eq]

theorem Says.unique (h : env.Says name t) (h' : env.Says name t') : t = t' :=
  Option.some.inj ((text?_eq_some_iff.mpr h).symm.trans (text?_eq_some_iff.mpr h'))

end Environment

/-! ## Settings -/

namespace Config

open Net (SocketAddress)

variable {env : Environment} {name : String}

/-- A number is what the file says if that is positive, else what the variable gives, else the
default. -/
inductive NumberSetting (env : Environment) (name : String) (file : Option Nat) (default : Nat) :
    Nat → Prop
  | ofFile {n : Nat} : file = some n → 0 < n → NumberSetting env name file default n
  | ofVariable {n : Nat} : (∀ k, file = some k → k = 0) → env.Gives name n →
      NumberSetting env name file default n
  | ofDefault : (∀ k, file = some k → k = 0) → (∀ n, ¬ env.Gives name n) →
      NumberSetting env name file default default

/-- The idle timeout is what the file says, where zero is none, else what the variable gives, else
none. -/
inductive TimeoutSetting (env : Environment) (name : String) (file : Option Nat) :
    Option Nat → Prop
  | ofFile {n : Nat} : file = some n → 0 < n → TimeoutSetting env name file (some n)
  | off : file = some 0 → TimeoutSetting env name file none
  | ofVariable {n : Nat} : file = none → env.Gives name n → TimeoutSetting env name file (some n)
  | unset : file = none → (∀ n, ¬ env.Gives name n) → TimeoutSetting env name file none

/-- An address is what the file says, else what the variable says, else the default. -/
inductive AddressSetting (env : Environment) (name : String) (file : Option String)
    (default : SocketAddress) : SocketAddress → Prop
  | ofFile {t : String} {a : SocketAddress} : file = some t → SocketAddress.parse? t = some a →
      AddressSetting env name file default a
  | ofVariable {t : String} {a : SocketAddress} : file = none → env.Says name t →
      SocketAddress.parse? t = some a → AddressSetting env name file default a
  | ofDefault : file = none → (∀ t, ¬ env.Says name t) →
      AddressSetting env name file default default

theorem positive_eq_none_iff {file : Option Nat} :
    file.filter (0 < ·) = none ↔ ∀ k, file = some k → k = 0 := by
  simp only [Option.filter_eq_none_iff, decide_eq_true_eq, Nat.not_lt, Nat.le_zero_eq]

theorem positive_some {n : Nat} (hn : 0 < n) : (some n).filter (0 < ·) = some n :=
  Option.filter_some_pos (decide_eq_true hn)

theorem numberSetting_iff {file : Option Nat} {default n : Nat} :
    NumberSetting env name file default n ↔
      n = (file.filter (0 < ·)).getD ((env.positive? name).getD default) := by
  constructor
  · intro h
    cases h with
    | ofFile hf hn => rw [hf, positive_some hn, Option.getD_some]
    | ofVariable hf hg =>
      rw [positive_eq_none_iff.mpr hf, Environment.positive?_eq_some_iff.mpr hg]
      rfl
    | ofDefault hf hg =>
      rw [positive_eq_none_iff.mpr hf, Environment.positive?_eq_none_iff.mpr hg]
      rfl
  · rintro rfl
    cases hf : file.filter (0 < ·) with
    | some n =>
      obtain ⟨hfile, hn⟩ := Option.filter_eq_some_iff.mp hf
      exact .ofFile hfile (of_decide_eq_true hn)
    | none =>
      have hzero := positive_eq_none_iff.mp hf
      cases hg : env.positive? name with
      | some n => exact .ofVariable hzero (Environment.positive?_eq_some_iff.mp hg)
      | none => exact .ofDefault hzero (Environment.positive?_eq_none_iff.mp hg)

theorem timeoutSetting_iff {file o : Option Nat} : TimeoutSetting env name file o ↔
    o = file.elim (env.positive? name) fun n => (some n).filter (0 < ·) := by
  constructor
  · intro h
    cases h with
    | ofFile hf hn => rw [hf, Option.elim_some, positive_some hn]
    | off hf =>
      rw [hf]
      rfl
    | ofVariable hf hg => rw [hf, Option.elim_none, Environment.positive?_eq_some_iff.mpr hg]
    | unset hf hg => rw [hf, Option.elim_none, Environment.positive?_eq_none_iff.mpr hg]
  · rintro rfl
    cases hf : file with
    | some n =>
      rcases Nat.eq_zero_or_pos n with rfl | hn
      · exact .off rfl
      · rw [Option.elim_some, positive_some hn]
        exact .ofFile rfl hn
    | none =>
      rw [Option.elim_none]
      cases hg : env.positive? name with
      | some n => exact .ofVariable rfl (Environment.positive?_eq_some_iff.mp hg)
      | none => exact .unset rfl (Environment.positive?_eq_none_iff.mp hg)

theorem addressSetting_iff {file : Option String} {default a : SocketAddress} :
    AddressSetting env name file default a ↔
      file.elim ((env.text? name).elim (some default) SocketAddress.parse?) SocketAddress.parse? =
        some a := by
  constructor
  · intro h
    cases h with
    | ofFile hf ha => rw [hf, Option.elim_some, ha]
    | ofVariable hf hs ha =>
      rw [hf, Option.elim_none, Environment.text?_eq_some_iff.mpr hs, Option.elim_some, ha]
    | ofDefault hf hs =>
      rw [hf, Option.elim_none, Environment.text?_eq_none_iff.mpr hs, Option.elim_none]
  · intro h
    cases hf : file with
    | some t =>
      rw [hf] at h
      exact .ofFile rfl h
    | none =>
      rw [hf] at h
      cases hs : env.text? name with
      | some t =>
        rw [hs] at h
        exact .ofVariable rfl (Environment.text?_eq_some_iff.mp hs) h
      | none =>
        rw [hs] at h
        obtain rfl := Option.some.inj h
        exact .ofDefault rfl (Environment.text?_eq_none_iff.mp hs)

/-- The settings that the layers say. -/
structure Layered (env : Environment) (o : Option Overrides) (c : Config) : Prop where
  bind : AddressSetting env "KAIRO_BIND" (o.bind (·.bind)) defaultBind c.bind
  metricsBind : AddressSetting env "KAIRO_METRICS_BIND" (o.bind (·.metricsBind)) defaultMetricsBind
    c.metricsBind
  maxTick : NumberSetting env "KAIRO_SCHEDULER_MAX_TICK_MS" (o.bind (·.maxTick)) 250 c.maxTick
  subscriberCapacity : NumberSetting env "KAIRO_SUBSCRIBER_QUEUE_CAPACITY"
    (o.bind (·.subscriberCapacity)) 1024 c.subscriberCapacity
  channelCapacity : NumberSetting env "KAIRO_CHANNEL_BUFFER_CAPACITY" (o.bind (·.channelCapacity))
    65536 c.channelCapacity
  idleTimeout : TimeoutSetting env "KAIRO_CHANNEL_IDLE_TIMEOUT_MS" (o.bind (·.idleTimeout))
    c.idleTimeout
  reapInterval : NumberSetting env "KAIRO_CHANNEL_REAP_INTERVAL_MS" (o.bind (·.reapInterval)) 1000
    c.reapInterval

/-- The layers say each setting once. -/
theorem Layered.unique {o : Option Overrides} {c c' : Config} (h : Layered env o c)
    (h' : Layered env o c') : c = c' := by
  have haddress {name : String} {file : Option String} {default a a' : SocketAddress}
      (ha : AddressSetting env name file default a)
      (ha' : AddressSetting env name file default a') : a = a' :=
    Option.some.inj ((addressSetting_iff.mp ha).symm.trans (addressSetting_iff.mp ha'))
  have hnumber {name : String} {file : Option Nat} {default n n' : Nat}
      (hn : NumberSetting env name file default n) (hn' : NumberSetting env name file default n') :
      n = n' :=
    (numberSetting_iff.mp hn).trans (numberSetting_iff.mp hn').symm
  have htimeout : c.idleTimeout = c'.idleTimeout :=
    (timeoutSetting_iff.mp h.idleTimeout).trans (timeoutSetting_iff.mp h'.idleTimeout).symm
  cases c
  cases c'
  congr
  · exact haddress h.bind h'.bind
  · exact haddress h.metricsBind h'.metricsBind
  · exact hnumber h.maxTick h'.maxTick
  · exact hnumber h.subscriberCapacity h'.subscriberCapacity
  · exact hnumber h.channelCapacity h'.channelCapacity
  · exact hnumber h.reapInterval h'.reapInterval

/-- The layer of the file: nothing if no file is named, else the settings that it writes. -/
inductive FileLayer (env : Environment) (read : String → Option String) : Option Overrides → Prop
  | unnamed : (∀ file, ¬ env.Says "KAIRO_BROKER_CONFIG" file) → FileLayer env read none
  | named {file text : String} {o : Overrides} : env.Says "KAIRO_BROKER_CONFIG" file →
      read file = some text → Overrides.ofYaml? text = some o → FileLayer env read (some o)

end Config

/-! ## Faults -/

namespace ConfigError

open Net (SocketAddress)
open Config (FileLayer)

variable {env : Environment} {read : String → Option String} {e e' : ConfigError} {k : Nat}

/-- Something in the layers is at fault. -/
def Holds (env : Environment) (read : String → Option String) : ConfigError → Prop
  | bindVariable => ∃ t, env.Says "KAIRO_BIND" t ∧ SocketAddress.parse? t = none
  | metricsBindVariable => ∃ t, env.Says "KAIRO_METRICS_BIND" t ∧ SocketAddress.parse? t = none
  | unreadable file => env.Says "KAIRO_BROKER_CONFIG" file ∧ read file = none
  | malformed => ∃ file text, env.Says "KAIRO_BROKER_CONFIG" file ∧ read file = some text ∧
      Overrides.ofYaml? text = none
  | bindField => ∃ o t, FileLayer env read (some o) ∧ o.bind = some t ∧
      SocketAddress.parse? t = none
  | metricsBindField => ∃ o t, FileLayer env read (some o) ∧ o.metricsBind = some t ∧
      SocketAddress.parse? t = none

/-- Which fault comes first. -/
def rank : ConfigError → Nat
  | bindVariable => 0
  | metricsBindVariable => 1
  | unreadable _ => 2
  | malformed => 3
  | bindField => 4
  | metricsBindField => 5

/-- There is no fault before a place. -/
def NoneBefore (env : Environment) (read : String → Option String) (k : Nat) : Prop :=
  ∀ e : ConfigError, e.Holds env read → k ≤ e.rank

/-- A fault before which there is none. -/
def IsFirst (env : Environment) (read : String → Option String) (e : ConfigError) : Prop :=
  e.Holds env read ∧ NoneBefore env read e.rank

theorem NoneBefore.next (h : NoneBefore env read k)
    (hk : ∀ e : ConfigError, e.rank = k → ¬ e.Holds env read) : NoneBefore env read (k + 1) :=
  fun e he => Nat.lt_of_le_of_ne (h e he) fun hr => hk e hr.symm he

theorem rank_lt (e : ConfigError) : e.rank < 6 := by
  cases e <;> simp [rank]

theorem NoneBefore.all (h : NoneBefore env read 6) (e : ConfigError) : ¬ e.Holds env read :=
  fun he => Nat.not_le_of_lt e.rank_lt (h e he)

/-- Only one fault can be at a place. -/
theorem Holds.unique (h : e.Holds env read) (h' : e'.Holds env read) (hr : e.rank = e'.rank) :
    e = e' := by
  cases e <;> cases e' <;> first | rfl | cases hr
  case unreadable.unreadable file file' => rw [h.1.unique h'.1]

theorem IsFirst.unique (h : e.IsFirst env read) (h' : e'.IsFirst env read) : e = e' :=
  h.1.unique h'.1 (Nat.le_antisymm (h.2 e' h'.1) (h'.2 e h.1))

end ConfigError

/-! ## Reading the layers -/

namespace Config

open Net (SocketAddress)
open ConfigError (NoneBefore IsFirst)

variable {env : Environment} {read : String → Option String} {name : String}

theorem address_eq_ok_iff {default a : SocketAddress} {text : Option String} {e : ConfigError} :
    address default text e = .ok a ↔ text.elim (some default) SocketAddress.parse? = some a := by
  cases text with
  | none => simp only [address, Except.ok.injEq, Option.elim_none, Option.some.injEq]
  | some t =>
    simp only [address, Option.elim_some]
    cases SocketAddress.parse? t <;> simp

theorem address_eq_error_iff {default : SocketAddress} {text : Option String}
    {e e' : ConfigError} : address default text e = .error e' ↔
      e = e' ∧ ∃ t, text = some t ∧ SocketAddress.parse? t = none := by
  cases text with
  | none => simp [address]
  | some t =>
    simp only [address, Option.some.injEq, exists_eq_left']
    cases SocketAddress.parse? t <;> simp

theorem parsed_of_address {default a : SocketAddress} {text : Option String} {e : ConfigError}
    (h : address default text e = .ok a) {t : String} (ht : text = some t) :
    SocketAddress.parse? t ≠ none := by
  rw [address_eq_ok_iff, ht, Option.elim_some] at h
  rw [h]
  exact Option.some_ne_none a

/-- The variables are read in order. -/
theorem ofEnvironment_cases (env : Environment) (read : String → Option String) :
    (∃ e, ofEnvironment env = .error e ∧ e.IsFirst env read) ∨
      ∃ c, ofEnvironment env = .ok c ∧ NoneBefore env read 2 ∧ Layered env none c := by
  have hzero : NoneBefore env read 0 := fun _ _ => Nat.zero_le _
  unfold ofEnvironment
  cases hb : address defaultBind (env.text? "KAIRO_BIND") .bindVariable with
  | error e =>
    obtain ⟨rfl, t, ht, hparse⟩ := address_eq_error_iff.mp hb
    exact .inl ⟨_, rfl, ⟨t, Environment.text?_eq_some_iff.mp ht, hparse⟩, hzero⟩
  | ok bind =>
    have hone : NoneBefore env read 1 := by
      refine hzero.next fun e he hholds => ?_
      cases e <;> cases he
      obtain ⟨t, ht, hparse⟩ := hholds
      exact parsed_of_address hb (Environment.text?_eq_some_iff.mpr ht) hparse
    cases hm : address defaultMetricsBind (env.text? "KAIRO_METRICS_BIND") .metricsBindVariable with
    | error e =>
      obtain ⟨rfl, t, ht, hparse⟩ := address_eq_error_iff.mp hm
      exact .inl ⟨_, rfl, ⟨t, Environment.text?_eq_some_iff.mp ht, hparse⟩, hone⟩
    | ok metricsBind =>
      refine .inr ⟨_, rfl, hone.next fun e he hholds => ?_, ?_⟩
      · cases e <;> cases he
        obtain ⟨t, ht, hparse⟩ := hholds
        exact parsed_of_address hm (Environment.text?_eq_some_iff.mpr ht) hparse
      · exact ⟨addressSetting_iff.mpr (address_eq_ok_iff.mp hb),
          addressSetting_iff.mpr (address_eq_ok_iff.mp hm), numberSetting_iff.mpr rfl,
          numberSetting_iff.mpr rfl, numberSetting_iff.mpr rfl, timeoutSetting_iff.mpr rfl,
          numberSetting_iff.mpr rfl⟩

/-! ### The file over the variables -/

theorem NumberSetting.over {default n : Nat} (h : NumberSetting env name none default n)
    (file : Option Nat) :
    NumberSetting env name file default ((file.filter (0 < ·)).getD n) := by
  rw [numberSetting_iff.mp h]
  exact numberSetting_iff.mpr rfl

theorem TimeoutSetting.over {o : Option Nat} (h : TimeoutSetting env name none o)
    (file : Option Nat) :
    TimeoutSetting env name file (file.elim o fun n => (some n).filter (0 < ·)) := by
  rw [timeoutSetting_iff.mp h]
  exact timeoutSetting_iff.mpr rfl

theorem AddressSetting.over {default a a' : SocketAddress} {file : Option String} {e : ConfigError}
    (h : AddressSetting env name none default a) (ha : address a file e = .ok a') :
    AddressSetting env name file default a' := by
  rw [addressSetting_iff, ← address_eq_ok_iff.mp ha, ← addressSetting_iff.mp h]
  rfl

/-- There is one layer of the file. -/
theorem FileLayer.unique {o o' : Option Overrides} (h : FileLayer env read o)
    (h' : FileLayer env read o') : o = o' := by
  cases h with
  | unnamed hn =>
    cases h' with
    | unnamed => rfl
    | named hs => exact absurd hs (hn _)
  | named hs hr ho =>
    cases h' with
    | unnamed hn => exact absurd hs (hn _)
    | named hs' hr' ho' =>
      obtain rfl := hs.unique hs'
      obtain rfl := Option.some.inj (hr.symm.trans hr')
      rw [← ho, ho']

theorem override_cases {c : Config} {o : Overrides} (hf : FileLayer env read (some o))
    (hn : NoneBefore env read 4) (hc : Layered env none c) :
    (∃ e, c.override o = .error e ∧ e.IsFirst env read) ∨
      ∃ c', c.override o = .ok c' ∧ NoneBefore env read 6 ∧ Layered env (some o) c' := by
  unfold override
  cases hb : address c.bind o.bind .bindField with
  | error e =>
    obtain ⟨rfl, t, ht, hparse⟩ := address_eq_error_iff.mp hb
    exact .inl ⟨_, rfl, ⟨o, t, hf, ht, hparse⟩, hn⟩
  | ok bind =>
    have hfive : NoneBefore env read 5 := by
      refine hn.next fun e he hholds => ?_
      cases e <;> cases he
      obtain ⟨o', t, hf', ht, hparse⟩ := hholds
      obtain rfl := Option.some.inj (hf.unique hf')
      exact parsed_of_address hb ht hparse
    cases hm : address c.metricsBind o.metricsBind .metricsBindField with
    | error e =>
      obtain ⟨rfl, t, ht, hparse⟩ := address_eq_error_iff.mp hm
      exact .inl ⟨_, rfl, ⟨o, t, hf, ht, hparse⟩, hfive⟩
    | ok metricsBind =>
      refine .inr ⟨_, rfl, hfive.next fun e he hholds => ?_, ?_⟩
      · cases e <;> cases he
        obtain ⟨o', t, hf', ht, hparse⟩ := hholds
        obtain rfl := Option.some.inj (hf.unique hf')
        exact parsed_of_address hm ht hparse
      · exact ⟨hc.bind.over hb, hc.metricsBind.over hm, hc.maxTick.over _,
          hc.subscriberCapacity.over _, hc.channelCapacity.over _, hc.idleTimeout.over _,
          hc.reapInterval.over _⟩

/-- Without a file no fault is left after the variables. -/
theorem noneBefore_of_unnamed (hn : NoneBefore env read 2)
    (hnone : ∀ file, ¬ env.Says "KAIRO_BROKER_CONFIG" file) : NoneBefore env read 6 := by
  intro e hholds
  cases e with
  | bindVariable | metricsBindVariable => exact absurd (hn _ hholds) (by decide)
  | unreadable file => exact absurd hholds.1 (hnone file)
  | malformed =>
    obtain ⟨file, text, hs, -⟩ := hholds
    exact absurd hs (hnone file)
  | bindField | metricsBindField =>
    obtain ⟨o, t, hf, -⟩ := hholds
    cases hf.unique (.unnamed hnone)

/-- All layers, in order. -/
theorem load_cases (env : Environment) (read : String → Option String) :
    (∃ e, load env read = .error e ∧ e.IsFirst env read) ∨
      ∃ c o, load env read = .ok c ∧ NoneBefore env read 6 ∧ FileLayer env read o ∧
        Layered env o c := by
  unfold load
  obtain ⟨e, he, hfirst⟩ | ⟨c, hc, htwo, hlayered⟩ := ofEnvironment_cases env read
  · rw [he]
    exact .inl ⟨e, rfl, hfirst⟩
  rw [hc]
  cases hfile : env.text? "KAIRO_BROKER_CONFIG" with
  | none =>
    have hnone := Environment.text?_eq_none_iff.mp hfile
    exact .inr ⟨c, none, rfl, noneBefore_of_unnamed htwo hnone, .unnamed hnone, hlayered⟩
  | some file =>
    have hs := Environment.text?_eq_some_iff.mp hfile
    cases hr : read file with
    | none => exact .inl ⟨.unreadable file, by simp only [hr]; rfl, ⟨hs, hr⟩, htwo⟩
    | some text =>
      have hthree : NoneBefore env read 3 := by
        refine htwo.next fun e he hholds => ?_
        cases e <;> cases he
        obtain rfl := hs.unique hholds.1
        exact Option.some_ne_none text (hr.symm.trans hholds.2)
      cases ho : Overrides.ofYaml? text with
      | none =>
        exact .inl ⟨.malformed, by simp only [hr, ho]; rfl, ⟨file, text, hs, hr, ho⟩, hthree⟩
      | some o =>
        have hfour : NoneBefore env read 4 := by
          refine hthree.next fun e he hholds => ?_
          cases e <;> cases he
          obtain ⟨file', text', hs', hr', ho'⟩ := hholds
          obtain rfl := hs.unique hs'
          obtain rfl := Option.some.inj (hr.symm.trans hr')
          exact Option.some_ne_none o (ho.symm.trans ho')
        obtain ⟨e, he, hfirst⟩ | ⟨c', hc', hsix, hlayered'⟩ :=
          override_cases (.named hs hr ho) hfour hlayered
        · exact .inl ⟨e, by simp only [hr, ho]; exact he, hfirst⟩
        · exact .inr ⟨c', some o, by simp only [hr, ho]; exact hc', hsix, .named hs hr ho,
            hlayered'⟩

/-! ## What is read -/

theorem NumberSetting.positive {file : Option Nat} {default n : Nat}
    (h : NumberSetting env name file default n) (hd : 1 ≤ default) : 1 ≤ n := by
  cases h with
  | ofFile _ hn => exact hn
  | ofVariable _ hg => exact hg.1
  | ofDefault => exact hd

theorem TimeoutSetting.positive {file : Option Nat} {n : Nat}
    (h : TimeoutSetting env name file (some n)) : 1 ≤ n := by
  cases h with
  | ofFile _ hn => exact hn
  | ofVariable _ hg => exact hg.1

/-- No setting is zero. -/
structure Sound (c : Config) : Prop where
  maxTick : 1 ≤ c.maxTick
  subscriberCapacity : 1 ≤ c.subscriberCapacity
  channelCapacity : 1 ≤ c.channelCapacity
  idleTimeout : ∀ n, c.idleTimeout = some n → 1 ≤ n
  reapInterval : 1 ≤ c.reapInterval

theorem Layered.sound {o : Option Overrides} {c : Config} (h : Layered env o c) : c.Sound where
  maxTick := h.maxTick.positive (by decide)
  subscriberCapacity := h.subscriberCapacity.positive (by decide)
  channelCapacity := h.channelCapacity.positive (by decide)
  idleTimeout n hn := TimeoutSetting.positive (hn ▸ h.idleTimeout)
  reapInterval := h.reapInterval.positive (by decide)

/-- A broker can be made with settings that are not zero. -/
theorem Sound.broker {c : Config} (h : c.Sound) : ∃ b, Broker.new c.brokerSettings = .ok b := by
  have hsubscriber : c.brokerSettings.subscriberCapacity ≠ 0 :=
    Nat.one_le_iff_ne_zero.mp h.subscriberCapacity
  have hchannel : c.brokerSettings.channelCapacity ≠ 0 :=
    Nat.one_le_iff_ne_zero.mp h.channelCapacity
  rw [Broker.new, if_neg hsubscriber, if_neg hchannel]
  exact ⟨_, rfl⟩

/-- Reading the layers fails with the first fault in them, whatever the later layers say. Without a
fault each setting is what the layers say, no setting is zero, and a broker can be made with them.
-/
theorem layering (env : Environment) (read : String → Option String) :
    (∀ e, load env read = .error e ↔ e.IsFirst env read) ∧
      (∀ c, load env read = .ok c ↔ (∀ e : ConfigError, ¬ e.Holds env read) ∧
        ∃ o, FileLayer env read o ∧ Layered env o c) ∧
      ∀ c, load env read = .ok c → c.Sound ∧ ∃ b, Broker.new c.brokerSettings = .ok b := by
  obtain ⟨e, he, hfirst⟩ | ⟨c, o, hc, hnone, hfile, hlayered⟩ := load_cases env read
  · refine ⟨fun e' => ?_, fun c => ?_, fun c hc => ?_⟩
    · rw [he, Except.error.injEq]
      exact ⟨fun h => h ▸ hfirst, hfirst.unique⟩
    · rw [he]
      exact ⟨nofun, fun h => absurd hfirst.1 (h.1 e)⟩
    · rw [he] at hc
      cases hc
  · refine ⟨fun e => ?_, fun c' => ?_, fun c' hc' => ?_⟩
    · rw [hc]
      exact ⟨nofun, fun h => absurd h.1 (hnone.all e)⟩
    · rw [hc, Except.ok.injEq]
      constructor
      · rintro rfl
        exact ⟨hnone.all, o, hfile, hlayered⟩
      · rintro ⟨-, o', hfile', hlayered'⟩
        obtain rfl := hfile.unique hfile'
        exact hlayered.unique hlayered'
    · obtain rfl := Except.ok.inj (hc.symm.trans hc')
      exact ⟨hlayered.sound, hlayered.sound.broker⟩

/-- A zero in the file takes the idle timeout away, and is passed over elsewhere. -/
example : (load (fun name =>
      if name = "KAIRO_BROKER_CONFIG" then some (Utf8.ofString "kairo.yaml")
      else if name = "KAIRO_CHANNEL_IDLE_TIMEOUT_MS" then some (Utf8.ofString "30000")
      else if name = "KAIRO_SCHEDULER_MAX_TICK_MS" then some (Utf8.ofString "+40")
      else none)
    fun _ => some "channel_idle_timeout_ms: 0\nscheduler_max_tick_ms: 0\n").toOption.map
      (fun c => (c.idleTimeout, c.maxTick)) = some (none, 40) := by
  decide +kernel

end Config

end EventBroker
