-- The server that `main.cpp` makes of a configuration file. The server keeps
-- a copy of the configuration, and prepares the managers without it.
import SimpleSnmpd.AgentModel
import SimpleSnmpd.ConfigModel

open simple_snmpd.snmp_config

namespace simple_snmpd.snmp_server

variable {M S : Type}

/-- What the constructor of the server calls of the managers. Neither call
is given a configuration. -/
structure Initializers (M S : Type) where
  initialize_standard_mibs : M → M
  initialize_defaults : S → S

/-- `SNMPServer`, with the managers as the server finds them. -/
structure SNMPServer (M S : Type) where
  config : SNMPConfig
  agent : Agent M S
deriving DecidableEq, Repr

/-- `SNMPServer::SNMPServer`. -/
def SNMPServer.new (i : Initializers M S) (config : SNMPConfig) (s : Agent M S) :
    SNMPServer M S where
  config := config
  agent :=
    { mib := i.initialize_standard_mibs s.mib
      security := i.initialize_defaults s.security }

/-- `main`, from the configuration file to the server that is made, if one
is made. -/
def main (i : Initializers M S) (test_config : Bool) (file : Option (List UInt8))
    (s : Agent M S) : Option (SNMPServer M S) :=
  match load file SNMPConfig.new with
  | (true, config) => if test_config then none else some (SNMPServer.new i config s)
  | (false, _) => none

end simple_snmpd.snmp_server
