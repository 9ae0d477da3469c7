import TenantQuery.Expansion.Options

namespace TenantQuery

structure Config where
  dataSource : String
  userField : String
  exampleDataAppID : Uuid
  contextTimeout : String
  skipEmptyBuckets : Bool
deriving DecidableEq

namespace Config

def publicAppID : Uuid := ⟨0xb97579b6ffb84ac5aaa7da5796cc5dce#128⟩

def standard : Config where
  dataSource := "telemetry-signals"
  userField := Expansion.defaultUserField
  exampleDataAppID := publicAppID
  contextTimeout := "200000"
  skipEmptyBuckets := false

def check (c : Config) : Except Error Config :=
  if c.dataSource = "" then .error (.settingMissing "dataSource")
  else if c.userField = "" then .error (.settingMissing "userField")
  else if c.exampleDataAppID = Uuid.zero then .error (.settingMissing "exampleDataAppID")
  else .ok c

end Config

end TenantQuery
