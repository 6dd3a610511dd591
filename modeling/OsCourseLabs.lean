import OsCourseLabs.Gpio.Automaton
import OsCourseLabs.Gpio.Buffer
import OsCourseLabs.Gpio.Complete
import OsCourseLabs.Gpio.Language
import OsCourseLabs.Gpio.Samples
import OsCourseLabs.Gpio.Publication
import OsCourseLabs.Gpio.Refusal
import OsCourseLabs.Gpio.Rollback
import OsCourseLabs.Gpio.Footprint
import OsCourseLabs.Gpio.Interleaving
import OsCourseLabs.Usb.Disconnect
import OsCourseLabs.Usb.InFlight
import OsCourseLabs.Usb.Accounting
import OsCourseLabs.Usb.Reports
import OsCourseLabs.Usb.Readers
import OsCourseLabs.Usb.Session
import OsCourseLabs.Usb.CommandLine
import OsCourseLabs.Kobject.Uevent
import OsCourseLabs.Gpio.Chardev
import OsCourseLabs.Gpio.Flash
import OsCourseLabs.Gpio.LedModule
import OsCourseLabs.Kobject.Kdemo
import OsCourseLabs.Iio.Lifecycle
import OsCourseLabs.Iio.Measurement
import OsCourseLabs.Iio.Sharing
import OsCourseLabs.Iio.Vl53l0x
import OsCourseLabs.Iio.Attributes
import OsCourseLabs.Iio.DummyInstances
