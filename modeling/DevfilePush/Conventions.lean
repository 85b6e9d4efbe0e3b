/-!
# Conventions

Label keys, volume names, paths inside a container and default deadlines. Engine resources are found
again through these labels alone, so a change to one of them orphans what earlier pushes made.

| resource | labels |
|---|---|
| project source volume | `component`, `type=projects` |
| supervisor volume | `component`, `type=supervisord` |
| declared storage volume | `component`, `storage-name` |
| container | `component`, `alias` |
-/

namespace DevfilePush.Conventions

/-- Label key of the component's name. -/
def componentLabel : String := "component"

/-- Label key of a container's alias within its component. -/
def aliasLabel : String := "alias"

/-- Label key of a volume's fixed role. -/
def typeLabel : String := "type"

/-- Label key of a declared volume's name. -/
def storageNameLabel : String := "storage-name"

/-- Value of the type label on project source volumes. -/
def projectsType : String := "projects"

/-- Value of the type label on supervisor volumes. -/
def supervisorType : String := "supervisord"

/-- First part of the names of project source volumes. -/
def projectSourceStem : String := "odo-project-source"

/-- First part of the names of supervisor volumes. -/
def supervisorStem : String := "odo-supervisord-shared-data"

/-- How many random hexadecimal digits end a volume's name. -/
def volumeSuffixLength : Nat := 4

/-- Where the project source volume is mounted. -/
def projectsPath : String := "/projects"

/-- Environment variable that points commands at the project source. -/
def projectsVariable : String := "CHE_PROJECTS_ROOT"

/-- Environment variable that carries the run command's line to the supervisor. -/
def runVariable : String := "ODO_COMMAND_RUN"

/-- Environment variable that carries the run command's working directory. -/
def runDirectoryVariable : String := "ODO_COMMAND_RUN_WORKING_DIR"

/-- Default path of the supervisor program. -/
def supervisorBinary : String := "/opt/odo/bin/supervisord"

/-- Default path of the supervisor's configuration. -/
def supervisorConf : String := "/opt/odo/conf/devfile-supervisor.conf"

/-- Default mount path of the supervisor volume. -/
def supervisorMount : String := "/opt/odo/"

/-- Default name of the supervised program that wraps the run command. -/
def runProgram : String := "devrun"

/-- Shell that runs init and build commands. -/
def shell : String := "/bin/sh"

/-- Host address that exposed ports are bound to unless configured otherwise. -/
def localhost : String := "127.0.0.1"

/-- Default deadline of an engine call, in seconds. -/
def callTimeoutSeconds : UInt64 := 300

/-- Default deadline of a command in a container, in seconds. -/
def execTimeoutSeconds : UInt64 := 600

/-- Largest configuration or environment file that is read, in bytes. -/
def fileSizeLimit : Nat := 1048576

/-- Where a component keeps its environment file, relative to its directory. -/
def envFilePath : String := ".odo/env/env.yaml"

end DevfilePush.Conventions
