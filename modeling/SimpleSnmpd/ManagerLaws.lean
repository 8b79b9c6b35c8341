-- What the agent may rely on of its managers, and managers of one object
-- that keep to it.
import SimpleSnmpd.AgentModel
import SimpleSnmpd.OrderedStores

open write_logs ordered_stores

namespace simple_snmpd.snmp_server

variable {M : Type}

/-! ## The laws -/

/-- `set_value` stores the value where it returns true, changes nothing
where it returns false, and never changes another OID. -/
structure MIBManager.Lawful (mib : MIBManager M) : Prop where
  stores : ∀ m o v, (mib.set_value m o v).1 = true →
    mib.get_value (mib.set_value m o v).2 o = some v
  refuses : ∀ m o v, (mib.set_value m o v).1 = false →
    mib.get_value (mib.set_value m o v).2 o = mib.get_value m o
  keeps : ∀ m o v o', o' ≠ o → mib.get_value (mib.set_value m o v).2 o' = mib.get_value m o'

/-- A value that `set_value` takes is stored, and changes no other OID. -/
structure MIBManager.Takes (mib : MIBManager M) : Prop where
  stores : ∀ m o v, (mib.set_value m o v).1 = true →
    mib.get_value (mib.set_value m o v).2 o = some v
  keeps : ∀ m o v, (mib.set_value m o v).1 = true → ∀ o', o' ≠ o →
    mib.get_value (mib.set_value m o v).2 o' = mib.get_value m o'

variable {mib : MIBManager M}

theorem MIBManager.Takes.get_value_accepted (h : mib.Takes) {m : M} {o : OID} {v : MIBValue}
    (hset : (mib.set_value m o v).1 = true) :
    mib.get_value (mib.set_value m o v).2 = put (mib.get_value m) o v := by
  funext o'
  by_cases ho : o' = o
  · rw [ho, put_same]
    exact h.stores m o v hset
  · rw [put_other _ _ ho]
    exact h.keeps m o v hset o' ho

theorem MIBManager.Lawful.takes (h : mib.Lawful) : mib.Takes :=
  ⟨h.stores, fun m o v _ => h.keeps m o v⟩

theorem MIBManager.Lawful.get_value_refused (h : mib.Lawful) {m : M} {o : OID} {v : MIBValue}
    (hset : (mib.set_value m o v).1 = false) :
    mib.get_value (mib.set_value m o v).2 = mib.get_value m := by
  funext o'
  by_cases ho : o' = o
  · rw [ho]
    exact h.refuses m o v hset
  · exact h.keeps m o v o' ho

/-! ## Managers of one object -/

/-- A MIB of one object that is not scalar and takes any value. -/
def one_object (d : OID) : MIBManager MIBValue where
  get_value m o := if o = d then some m else none
  set_value m o v := if o = d then (true, v) else (false, m)
  get_next_oid _ o := if o < d then some d else none
  is_scalar _ _ := false

theorem one_object_lawful (d : OID) : (one_object d).Lawful where
  stores m o v h := by
    by_cases ho : o = d
    · simp [one_object, ho]
    · simp [one_object, ho] at h
  refuses m o v h := by
    by_cases ho : o = d
    · simp [one_object, ho] at h
    · simp [one_object, ho]
  keeps m o v o' h := by
    by_cases ho : o = d
    · subst ho
      simp [one_object, h]
    · simp [one_object, ho]

theorem one_object_next (d : OID) (m : MIBValue) :
    FindsNext ((one_object d).get_next_oid m) ((one_object d).get_value m) := by
  intro o
  by_cases h : o < d
  · simp only [one_object, if_pos h]
    refine ⟨by simp, h, fun x hx _ => ?_⟩
    by_cases hxd : x = d
    · rw [hxd]
      exact List.lt_irrefl d
    · simp [hxd] at hx
  · simp only [one_object, if_neg h]
    intro x hx
    by_cases hxd : x = d
    · rwa [hxd]
    · simp [hxd] at hx

/-- A security manager that admits everything. -/
def open_security : SecurityManager Unit where
  check_rate_limit _ _ _ := (true, ())
  is_ip_allowed _ _ := true
  is_access_allowed _ _ _ := true
  is_oid_allowed _ _ _ := true
  is_write_allowed _ _ := true

/-- An open agent with one object. -/
def one_object_managers (d : OID) : Managers MIBValue Unit where
  mib := one_object d
  security := open_security
  oid_to_string := id

end simple_snmpd.snmp_server
